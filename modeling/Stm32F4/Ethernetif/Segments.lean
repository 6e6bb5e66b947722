import Mathlib.Data.List.Nodup
import Stm32F4.Ethernetif.Interrupt

/-! Frames in several descriptors.

`HAL_ETH_GetReceivedFrame` looks at one descriptor a call. Of a longer frame it only counts the
descriptors until the last one comes, so `low_level_input` returns nothing as often as the
frame has descriptors before that (`Counting`). The call that sees the last one takes the
frame: the chain gets its bytes, however the two are cut, and with or without a chain
the descriptors that were counted go back to the DMA (`input_scatters`). -/
namespace Stm32F4.Ethernetif
open Hal Lib

variable {σ : Type}

/-- The driver after `n` calls of `low_level_input` that found no frame. -/
def looked (net : Netif σ) (s : σ) (n : Nat) (h : Eth) : Eth :=
  (fun h => (lowLevelInput net s h).eth)^[n] h

/-- The frame starts at the next descriptor. -/
def Starts (f : Frame) (h : Eth) : Prop :=
  (List.range f.statuses.length).map (fun i =>
    (h.rxTab (walk h.rxTab h.rxDesc i)).status) = f.statuses

/-- What the call `r` owes that takes a frame of `len` bytes in the `count` descriptors from
`start` on. -/
structure Scattered (net : Netif σ) (s : σ) (h : Eth) (start count len : Nat)
    (r : Input σ) : Prop where
  /-- a chain with the segments it was allocated with, and the frame in them -/
  chain : ∀ p, (net.alloc s len).1 = some p →
    ∃ p', r.p = some p' ∧ p'.map Pbuf.len = p.map Pbuf.len ∧ payload p' = frameBytes h start len
  /-- or none, if none could be had -/
  noChain : (net.alloc s len).1 = none → r.p = none
  stack : r.stack = (net.alloc s len).2
  /-- no copy crosses the end of a buffer or of a payload -/
  within : ∀ c ∈ r.copies, RxCopy.Within h.rxTab start c
  /-- in either case the descriptors go back, each once, and no other -/
  released : r.released = (List.range count).map (walk h.rxTab start)
  once : r.released.Nodup
  rxTab : ∀ d, r.eth.rxTab d =
    if d ∈ r.released then (h.rxTab d).setStatus ethDmaRxDescOwn else h.rxTab d
  segCount : r.eth.rxFrameInfos.segCount = 0

/-- `low_level_input` and the frame `f`. -/
structure Takes (net : Netif σ) (s : σ) (h : Eth) (f : Frame) : Prop where
  /-- the descriptors before the last one: nothing is taken -/
  waits : ∀ i, i < f.front.length →
    (lowLevelInput net s (looked net s i h)).p = none ∧
      (lowLevelInput net s (looked net s i h)).stack = s ∧
      (lowLevelInput net s (looked net s i h)).copies = [] ∧
      (lowLevelInput net s (looked net s i h)).released = []
  /-- the last one: `FSRxDesc`, `SegCount` and the length are the frame's -/
  scatters : Scattered net s h h.rxDesc f.statuses.length f.length
    (lowLevelInput net s (looked net s f.front.length h))

/-! ### The bits of a frame -/

namespace Frame
variable {f : Frame} {h : Eth} {i : Nat}

theorem length_statuses (f : Frame) : f.statuses.length = f.front.length + 1 := by
  rw [statuses, List.length_append, List.length_singleton]

/-- The descriptor at place `i` has the `i`-th status word. -/
theorem status_eq (hf : Starts f h) (hi : i < f.statuses.length) :
    (h.rxTab (walk h.rxTab h.rxDesc i)).status = f.statuses[i] := by
  have hget := congrArg (fun l => l[i]?) hf
  simp only [List.getElem?_map, List.getElem?_range hi, List.getElem?_eq_getElem hi,
    Option.map_some] at hget
  exact Option.some.inj hget

theorem own_eq (hf : Starts f h) (hi : i < f.statuses.length) :
    (h.rxTab (walk h.rxTab h.rxDesc i)).flag ethDmaRxDescOwn = false := by
  rw [EthDmaDesc.flag, status_eq hf hi]
  exact f.own _ (List.getElem_mem hi)

theorem fs_eq (hf : Starts f h) (hi : i < f.statuses.length) :
    (h.rxTab (walk h.rxTab h.rxDesc i)).flag ethDmaRxDescFs = decide (i = 0) := by
  have hget := congrArg (fun l => l[i]?) f.fs
  rw [EthDmaDesc.flag, status_eq hf hi]
  cases i with
  | zero =>
    simp only [List.getElem?_map, List.getElem?_cons_zero] at hget
    rw [← statuses, List.getElem?_eq_getElem hi] at hget
    exact Option.some.inj hget
  | succ j =>
    have hj : j < f.front.length := by
      rw [length_statuses] at hi
      omega
    simp only [List.getElem?_map, List.getElem?_cons_succ, List.getElem?_eq_getElem hj] at hget
    rw [← statuses, List.getElem?_eq_getElem hi] at hget
    exact Option.some.inj hget

theorem ls_front (hf : Starts f h) (hi : i < f.front.length) :
    (h.rxTab (walk h.rxTab h.rxDesc i)).flag ethDmaRxDescLs = false := by
  have hi' : i < f.statuses.length := by
    rw [length_statuses]
    omega
  rw [EthDmaDesc.flag, status_eq hf hi']
  refine f.ls.2 _ ?_
  simp only [statuses, List.getElem_append_left hi]
  exact List.getElem_mem hi

/-- The last one. -/
theorem status_last (hf : Starts f h) :
    (h.rxTab (walk h.rxTab h.rxDesc f.front.length)).status = f.last := by
  rw [status_eq hf (by rw [length_statuses]; omega)]
  simp only [statuses, List.getElem_concat_length]

end Frame

/-! ### Counting -/

/-- `i` descriptors of the frame that starts at the next one of `h` have been counted. -/
structure Counting (h : Eth) (i : Nat) (g : Eth) : Prop where
  rxTab : g.rxTab = h.rxTab
  mem : g.mem = h.mem
  lock : g.lock = .unlocked
  rxDesc : g.rxDesc = walk h.rxTab h.rxDesc i
  segCount : g.rxFrameInfos.segCount = i
  fsRxDesc : 0 < i → g.rxFrameInfos.fsRxDesc = h.rxDesc

/-- A frame of `len` bytes is complete: it is in `count` descriptors from the next one of `h` on. -/
structure Complete (h : Eth) (count len : Nat) (g : Eth) : Prop where
  rxTab : g.rxTab = h.rxTab
  mem : g.mem = h.mem
  segCount : g.rxFrameInfos.segCount = count
  fsRxDesc : g.rxFrameInfos.fsRxDesc = h.rxDesc
  length : frameLength g.rxFrameInfos = len
  buffer : g.rxFrameInfos.buffer = bufferAt h.rxTab h.rxDesc 0

section Count
variable {h g : Eth} {i : Nat}

/-- A descriptor that is not the last is counted; the first one is where the frame starts. -/
theorem Counting.next (hc : Counting h i g)
    (hown : (h.rxTab (walk h.rxTab h.rxDesc i)).flag ethDmaRxDescOwn = false)
    (hfs : (h.rxTab (walk h.rxTab h.rxDesc i)).flag ethDmaRxDescFs = decide (i = 0))
    (hls : (h.rxTab (walk h.rxTab h.rxDesc i)).flag ethDmaRxDescLs = false) :
    ∃ g', halEthGetReceivedFrame g = (.error, g') ∧ Counting h (i + 1) g' := by
  obtain ⟨htab, hmem, hlock, hdesc, hcount, hfirst⟩ := hc
  have hnext : (g.rxTab g.rxDesc).buffer2NextDescAddr = walk h.rxTab h.rxDesc (i + 1) := by
    rw [walk_succ, ← hdesc, htab]
  rw [← hdesc, ← htab] at hown hfs hls
  rw [halEthGetReceivedFrame, if_neg (by rw [hlock]; decide)]
  simp only [Eth.busy, hown, hls, hfs, Bool.false_eq_true, if_false]
  cases i with
  | zero => exact ⟨_, rfl, htab, hmem, rfl, hnext, rfl, fun _ => hdesc⟩
  | succ i =>
    exact ⟨_, rfl, htab, hmem, rfl, hnext, congrArg (· + 1) hcount,
      fun _ => hfirst (Nat.succ_pos i)⟩

/-- The last one completes it, also when it is the first. -/
theorem Counting.last (hc : Counting h i g)
    (hown : (h.rxTab (walk h.rxTab h.rxDesc i)).flag ethDmaRxDescOwn = false)
    (hls : (h.rxTab (walk h.rxTab h.rxDesc i)).flag ethDmaRxDescLs = true) {len : Nat}
    (hlen : ((((h.rxTab (walk h.rxTab h.rxDesc i)).status &&& ethDmaRxDescFl) >>>
      ethDmaRxDescFrameLengthShift - 4).setWidth 16).toNat = len) :
    ∃ g', halEthGetReceivedFrame g = (.ok, g') ∧ Complete h (i + 1) len g' := by
  obtain ⟨htab, hmem, hlock, hdesc, hcount, hfirst⟩ := hc
  rw [← hdesc, ← htab] at hown hls hlen
  rw [halEthGetReceivedFrame, if_neg (by rw [hlock]; decide)]
  simp only [Eth.busy, hown, hls, Bool.false_eq_true, if_false, if_true, hcount]
  have hbuffer : ∀ {d}, d = h.rxDesc → (g.rxTab d).buffer1Addr = bufferAt h.rxTab h.rxDesc 0 := by
    rintro d rfl
    rw [htab]
    rfl
  cases i with
  | zero => exact ⟨_, rfl, htab, hmem, rfl, hdesc, hlen, hbuffer hdesc⟩
  | succ i =>
    have hstart := hfirst (Nat.succ_pos i)
    exact ⟨_, rfl, htab, hmem, rfl, hstart, hlen, hbuffer hstart⟩

end Count

variable {net : Netif σ} {s : σ} {h : Eth} {f : Frame}

theorem looked_succ (net : Netif σ) (s : σ) (n : Nat) (h : Eth) :
    looked net s (n + 1) h = (lowLevelInput net s (looked net s n h)).eth :=
  Function.iterate_succ_apply' _ n h

theorem lowLevelInput_of_error {g g' : Eth} (hget : halEthGetReceivedFrame g = (.error, g')) :
    lowLevelInput net s g = ⟨none, g', s, [], []⟩ := by
  rw [lowLevelInput, hget]
  rfl

/-- One call before the last descriptor. -/
theorem Counting.input {g : Eth} {i : Nat} (hc : Counting h i g) (net : Netif σ) (s : σ)
    (hf : Starts f h)
    (hi : i < f.front.length) :
    ∃ g', lowLevelInput net s g = ⟨none, g', s, [], []⟩ ∧ Counting h (i + 1) g' := by
  have hi' : i < f.statuses.length := by
    rw [Frame.length_statuses]
    omega
  obtain ⟨g', hget, hnext⟩ :=
    hc.next (Frame.own_eq hf hi') (Frame.fs_eq hf hi') (Frame.ls_front hf hi)
  exact ⟨g', lowLevelInput_of_error hget, hnext⟩

/-- As many calls as there are descriptors before the last one. -/
theorem counting_run (net : Netif σ) (s : σ) (hl : h.lock = .unlocked)
    (hseg : h.rxFrameInfos.segCount = 0) (hf : Starts f h) {n : Nat} (hn : n ≤ f.front.length) :
    Counting h n (looked net s n h) := by
  induction n with
  | zero => exact ⟨rfl, rfl, hl, rfl, hseg, fun hpos => absurd hpos (Nat.lt_irrefl 0)⟩
  | succ n ih =>
    obtain ⟨g', hinput, hnext⟩ := (ih (Nat.le_of_succ_le hn)).input net s hf hn
    rw [looked_succ, hinput]
    exact hnext

/-! ### The frame -/

/-- Each descriptor goes back once. -/
theorem nodup_walk {tab : Nat → EthDmaDesc} {buff size count d n : Nat}
    (h : Linked tab buff size count)
    (hd : d < count) (hn : n ≤ count) : ((List.range n).map (walk tab d)).Nodup := by
  refine List.Nodup.map_on (fun i hi j hj heq => ?_) List.nodup_range
  exact walk_inj h hd (Nat.lt_of_lt_of_le (List.mem_range.mp hi) hn)
    (Nat.lt_of_lt_of_le (List.mem_range.mp hj) hn) heq

/-- A complete frame is taken. -/
theorem Complete.scattered (net : Netif σ) (s : σ) {g : Eth} {buff count len : Nat}
    (hg : Complete h count len g) (hring : Linked h.rxTab buff ethRxBufSize ethRxBufNb)
    (hd : h.rxDesc < ethRxBufNb) (hfit : count ≤ ethRxBufNb) :
    Scattered net s h h.rxDesc count len (takeFrame net s g) := by
  obtain ⟨hreleased, htab, hcount, -⟩ := takeFrame_released net s g
  have hstack := takeFrame_stack net s g
  have hbuffer : g.rxFrameInfos.buffer = bufferAt g.rxTab g.rxFrameInfos.fsRxDesc 0 := by
    rw [hg.buffer, hg.rxTab, hg.fsRxDesc]
  rw [hg.segCount, hg.fsRxDesc, hg.rxTab] at hreleased htab
  rw [hg.length] at hstack
  refine ⟨fun p hp => ?_, fun hp => ?_, hstack, fun c hc => ?_, hreleased, ?_, fun d => ?_, hcount⟩
  · obtain ⟨p', hp', hlens, hpayload, -⟩ := takeFrame_some net (by rw [hg.length]; exact hp) hbuffer
    refine ⟨p', hp', hlens, ?_⟩
    rw [hpayload, hg.length, hg.fsRxDesc, frameBytes, frameBytes, hg.rxTab, hg.mem]
  · exact takeFrame_none net (by rw [hg.length]; exact hp)
  · cases ha : (net.alloc s (frameLength g.rxFrameInfos)).1 with
    | none =>
      -- without a chain nothing is copied
      rw [takeFrame] at hc
      simp only [ha] at hc
      cases hc
    | some p =>
      obtain ⟨-, -, -, -, hwithin⟩ := takeFrame_some net ha hbuffer
      have hcopy := hwithin c hc
      rw [hg.rxTab, hg.fsRxDesc] at hcopy
      exact hcopy
  · rw [hreleased]
    exact nodup_walk hring hd hfit
  · rw [htab d, hreleased]

/-- **A frame in any number of descriptors is taken whole.** Its bytes get into the chain as they
follow each other in the buffers, wherever the chain is cut, and the frame's descriptors go back to
the DMA, also when there is no chain. -/
theorem input_scatters (net : Netif σ) (s : σ) {buff : Nat}
    (hring : Linked h.rxTab buff ethRxBufSize ethRxBufNb) (hd : h.rxDesc < ethRxBufNb)
    (hl : h.lock = .unlocked) (hseg : h.rxFrameInfos.segCount = 0) (hf : Starts f h)
    (hfit : f.statuses.length ≤ ethRxBufNb) : Takes net s h f := by
  refine ⟨fun i hi => ?_, ?_⟩
  · have hc := counting_run net s hl hseg hf (Nat.le_of_lt hi)
    obtain ⟨g', hinput, -⟩ := hc.input net s hf hi
    rw [hinput]
    exact ⟨rfl, rfl, rfl, rfl⟩
  · have hlast := Frame.length_statuses f
    have hc := counting_run net s hl hseg hf (Nat.le_refl _)
    have hls : (h.rxTab (walk h.rxTab h.rxDesc f.front.length)).flag ethDmaRxDescLs = true := by
      rw [EthDmaDesc.flag, Frame.status_last hf]
      exact f.ls.1
    have hlen : ((((h.rxTab (walk h.rxTab h.rxDesc f.front.length)).status &&& ethDmaRxDescFl) >>>
        ethDmaRxDescFrameLengthShift - 4).setWidth 16).toNat = f.length := by
      rw [Frame.status_last hf]
      rfl
    obtain ⟨g', hget, hg⟩ := hc.last (Frame.own_eq hf (by omega)) hls hlen
    rw [lowLevelInput, hget, hlast]
    exact hg.scattered net s hring hd (by omega)

/-- 2000 bytes in two descriptors. -/
def longFrame : Frame where
  front := [0x05F40200]
  last := 0x07D40100
  own := List.forall_mem_cons.mpr ⟨rfl, List.forall_mem_singleton.mpr rfl⟩
  ls := ⟨rfl, List.forall_mem_singleton.mpr rfl⟩
  fs := rfl

theorem input_scatters_two : Takes taker () (handedBack [longFrame]) longFrame := by
  have hold : Holds (handedBack [longFrame]) [longFrame] := handedBack_holds (by decide)
  have hstarts : Starts longFrame (handedBack [longFrame]) := hold.statuses
  exact input_scatters taker () (handedBack_linked _) (by decide) rfl rfl hstarts (by decide)

end Stm32F4.Ethernetif
