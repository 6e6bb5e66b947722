import Mathlib.Data.List.GetD
import Stm32F4.Ethernetif.Input

/-! The interrupt of the Ethernet controller.

`ETH_IRQHandler` drains the receive ring: as long as `ETH_GetRxPktSize` sees a frame in the
next descriptor, `lwip_pkt_handle` takes one out. The two do not look for the same thing.
`HAL_ETH_GetReceivedFrame` follows a frame through its descriptors and takes one with
errors like any other, but it is only asked when the next descriptor holds all of a
frame without errors. Any other frame at the head stops the loop, in this interrupt and in every
later one; and a handle that the program is using makes it go round for ever. So the interrupt
empties the ring exactly when all frames are plain and the handle is free (`empties_iff`). -/
namespace Stm32F4.Ethernetif
open Hal Lib

variable {σ : Type}

/-- The driver and the stack behind it; beside them the descriptors given back to the DMA so far,
and the chains `netif->input` was called with. -/
structure Board (σ : Type) where
  eth : Eth
  stack : σ
  released : List Nat
  passed : List (List Pbuf)

/-- `netif->input`, which leaves the chain to the caller if it fails. -/
def Netif.deliver (net : Netif σ) (s : σ) (p : List Pbuf) : Err × σ :=
  let r := net.input s p
  if r.1 ≠ .ok then (r.1, net.pbufFree r.2 p) else r

def ethernetifInput (net : Netif σ) (w : Board σ) : Err × Board σ :=
  let r := lowLevelInput net w.stack w.eth
  let w := { w with eth := r.eth, stack := r.stack, released := w.released ++ r.released }
  match r.p with
  | none => (.mem, w)
  | some p =>
    let d := net.deliver w.stack p
    (d.1, { w with stack := d.2, passed := w.passed ++ [p] })

def lwipPktHandle (net : Netif σ) (w : Board σ) : Board σ := (ethernetifInput net w).2

def ethGetRxPktSize (d : EthDmaDesc) : BitVec 32 :=
  if !d.flag ethDmaRxDescOwn && !d.flag ethDmaRxDescEs && d.flag ethDmaRxDescLs then
    (d.status &&& ethDmaRxDescFl) >>> ethDmaRxDescFrameLengthShift
  else 0

/-- The loop of `ETH_IRQHandler`, for at most so many tests of its condition. -/
def ethIrqLoop (net : Netif σ) : Nat → Board σ → Option (Board σ)
  | 0, _ => none
  | n + 1, w =>
    if ethGetRxPktSize (w.eth.rxTab w.eth.rxDesc) ≠ 0 then ethIrqLoop net n (lwipPktHandle net w)
    else some w

def ethIrqHandler (net : Netif σ) (n : Nat) (w : Board σ) : Option (Board σ) :=
  (ethIrqLoop net n w).map fun w =>
    { w with eth := (w.eth.writeDmasr ethDmaItNis).writeDmasr ethDmaItR }

/-! ### Frames in the ring -/

/-- A complete frame the DMA has handed back, as the status words of its descriptors. -/
structure Frame where
  /-- of all descriptors but the last -/
  front : List (BitVec 32)
  last : BitVec 32
  own : ∀ s ∈ front ++ [last], flagged s ethDmaRxDescOwn = false
  /-- the last-segment bit is the last one's -/
  ls : flagged last ethDmaRxDescLs = true ∧ ∀ s ∈ front, flagged s ethDmaRxDescLs = false
  /-- the first-segment bit is the first one's -/
  fs : (front ++ [last]).map (flagged · ethDmaRxDescFs) = true :: front.map fun _ => false

namespace Frame

def statuses (f : Frame) : List (BitVec 32) := f.front ++ [f.last]

/-- The field FL of the last descriptor: all bytes, the four of the checksum included. -/
def fl (f : Frame) : BitVec 32 := (f.last &&& ethDmaRxDescFl) >>> ethDmaRxDescFrameLengthShift

/-- The length the driver works with. -/
def length (f : Frame) : Nat := ((f.fl - 4).setWidth 16).toNat

/-- The error-summary bit. -/
def erroneous (f : Frame) : Bool := flagged f.last ethDmaRxDescEs

/-- The frame has a descriptor to itself, no errors, and a length. -/
structure Plain (f : Frame) : Prop where
  single : f.front = []
  sound : f.erroneous = false
  fl : f.fl ≠ 0

end Frame

/-- From the next descriptor on the ring holds exactly these frames; the DMA owns the rest. -/
structure Holds (h : Eth) (fs : List Frame) : Prop where
  fits : (fs.flatMap Frame.statuses).length ≤ ethRxBufNb
  statuses : (List.range (fs.flatMap Frame.statuses).length).map
    (fun i => (h.rxTab (walk h.rxTab h.rxDesc i)).status) = fs.flatMap Frame.statuses
  rest : ∀ i, (fs.flatMap Frame.statuses).length ≤ i → i < ethRxBufNb →
    (h.rxTab (walk h.rxTab h.rxDesc i)).flag ethDmaRxDescOwn = true

/-- The chains that the frames `fs` come to, the first of them at descriptor `d`. `bytes` reads
so many bytes from a descriptor on, `skip` goes on by so many descriptors. A frame for which
there is no chain comes to nothing, and one with errors may. -/
inductive Delivers (net : Netif σ) (bytes : Nat → Nat → List UInt8) (skip : Nat → Nat → Nat) :
    Nat → List Frame → σ → List (List Pbuf) → Prop where
  | nil (d : Nat) (s : σ) : Delivers net bytes skip d [] s []
  | erroneous {d : Nat} {f : Frame} {fs : List Frame} {s : σ} {ps : List (List Pbuf)}
      (he : f.erroneous = true)
      (hrest : Delivers net bytes skip (skip d f.statuses.length) fs s ps) :
      Delivers net bytes skip d (f :: fs) s ps
  | refused {d : Nat} {f : Frame} {fs : List Frame} {s : σ} {ps : List (List Pbuf)}
      (ha : (net.alloc s f.length).1 = none)
      (hrest : Delivers net bytes skip (skip d f.statuses.length) fs (net.alloc s f.length).2 ps) :
      Delivers net bytes skip d (f :: fs) s ps
  | passed {d : Nat} {f : Frame} {fs : List Frame} {s : σ} {ps : List (List Pbuf)}
      {p p' : List Pbuf}
      (ha : (net.alloc s f.length).1 = some p)
      (hlen : p'.map Pbuf.len = p.map Pbuf.len) (hbytes : payload p' = bytes d f.length)
      (hrest : Delivers net bytes skip (skip d f.statuses.length) fs
        (net.deliver (net.alloc s f.length).2 p').2 ps) :
      Delivers net bytes skip d (f :: fs) s (p' :: ps)

/-- The frames have been taken out of the ring. -/
structure Emptied (net : Netif σ) (w : Board σ) (fs : List Frame) (w' : Board σ) : Prop where
  /-- each of their descriptors has been given back, once -/
  released : w'.released = w.released ++
    (List.range (fs.flatMap Frame.statuses).length).map (walk w.eth.rxTab w.eth.rxDesc)
  /-- no frame is left anywhere -/
  owned : ∀ d, d < ethRxBufNb → (w'.eth.rxTab d).flag ethDmaRxDescOwn = true
  segCount : w'.eth.rxFrameInfos.segCount = 0
  passed : ∃ ps, w'.passed = w.passed ++ ps ∧
    Delivers net (frameBytes w.eth) (walk w.eth.rxTab) w.eth.rxDesc fs w.stack ps

/-- `ETH_IRQHandler` returns, and has taken the frames out of the ring. -/
def Empties (net : Netif σ) (w : Board σ) (fs : List Frame) : Prop :=
  ∃ n w', ethIrqHandler net n w = some w' ∧ Emptied net w fs w'

/-! ### One frame -/

theorem flagged_or {mask : BitVec 32} (hm : mask ≠ 0) (s : BitVec 32) :
    flagged (s ||| mask) mask = true := by
  have heq : (s ||| mask) &&& mask = mask := by
    ext i
    simp only [BitVec.getElem_and, BitVec.getElem_or]
    cases s[i] <;> cases mask[i] <;> rfl
  rw [flagged, heq]
  exact bne_iff_ne.mpr hm

/-- The next descriptor as the two functions see it. -/
theorem ethGetRxPktSize_ne_zero_iff {d : EthDmaDesc} : ethGetRxPktSize d ≠ 0 ↔
    d.flag ethDmaRxDescOwn = false ∧ d.flag ethDmaRxDescEs = false ∧ d.flag ethDmaRxDescLs = true ∧
      (d.status &&& ethDmaRxDescFl) >>> ethDmaRxDescFrameLengthShift ≠ 0 := by
  rw [ethGetRxPktSize]
  cases d.flag ethDmaRxDescOwn <;> cases d.flag ethDmaRxDescEs <;>
    cases d.flag ethDmaRxDescLs <;> simp

/-- The next descriptor taken as a frame of its own. -/
def received (h : Eth) : Eth :=
  { h with
    state := .ready, lock := .unlocked, rxDesc := (h.rxTab h.rxDesc).buffer2NextDescAddr
    rxFrameInfos :=
      { fsRxDesc := h.rxDesc, lsRxDesc := some h.rxDesc, segCount := 1
        length :=
          (((h.rxTab h.rxDesc).status &&& ethDmaRxDescFl) >>> ethDmaRxDescFrameLengthShift) - 4
        buffer := (h.rxTab h.rxDesc).buffer1Addr } }

/-- With nothing counted yet, the last descriptor of a frame is the whole frame. -/
theorem halEthGetReceivedFrame_last {h : Eth} (hl : h.lock = .unlocked)
    (hseg : h.rxFrameInfos.segCount = 0) (hown : (h.rxTab h.rxDesc).flag ethDmaRxDescOwn = false)
    (hls : (h.rxTab h.rxDesc).flag ethDmaRxDescLs = true) :
    halEthGetReceivedFrame h = (.ok, received h) := by
  simp [halEthGetReceivedFrame, received, hl, hseg, hown, hls, Eth.busy, Eth.ready, Eth.nextRxDesc]

/-- The program has the handle: nothing happens. -/
theorem lwipPktHandle_locked (net : Netif σ) {w : Board σ} (hl : w.eth.lock = .locked) :
    lwipPktHandle net w = w := by
  have hbusy : halEthGetReceivedFrame w.eth = (.busy, w.eth) := if_pos hl
  have hinput : lowLevelInput net w.stack w.eth = ⟨none, w.eth, w.stack, [], []⟩ := by
    rw [lowLevelInput, hbusy]
    rfl
  rw [lwipPktHandle, ethernetifInput, hinput, List.append_nil]

/-- What taking the frame `f` out of its one descriptor comes to. -/
structure Taken (net : Netif σ) (w : Board σ) (f : Frame) (w' : Board σ) : Prop where
  released : w'.released = w.released ++ [w.eth.rxDesc]
  rxDesc : w'.eth.rxDesc = walk w.eth.rxTab w.eth.rxDesc 1
  rxTab : w'.eth.rxTab = Function.update w.eth.rxTab w.eth.rxDesc
    ((w.eth.rxTab w.eth.rxDesc).setStatus ethDmaRxDescOwn)
  lock : w'.eth.lock = .unlocked
  segCount : w'.eth.rxFrameInfos.segCount = 0
  mem : w'.eth.mem = w.eth.mem
  passed : (net.alloc w.stack f.length).1 = none ∧ w'.passed = w.passed ∧
      w'.stack = (net.alloc w.stack f.length).2 ∨
    ∃ p p', (net.alloc w.stack f.length).1 = some p ∧ p'.map Pbuf.len = p.map Pbuf.len ∧
      payload p' = frameBytes w.eth w.eth.rxDesc f.length ∧ w'.passed = w.passed ++ [p'] ∧
      w'.stack = (net.deliver (net.alloc w.stack f.length).2 p').2

theorem lwipPktHandle_ok (net : Netif σ) {w : Board σ} {h : Eth}
    (hget : halEthGetReceivedFrame w.eth = (.ok, h)) :
    lwipPktHandle net w = { w with
      eth := (takeFrame net w.stack h).eth
      released := w.released ++ (takeFrame net w.stack h).released
      stack := match (takeFrame net w.stack h).p with
        | none => (takeFrame net w.stack h).stack
        | some p => (net.deliver (takeFrame net w.stack h).stack p).2
      passed := w.passed ++ (takeFrame net w.stack h).p.toList } := by
  have hinput : lowLevelInput net w.stack w.eth = takeFrame net w.stack h := by
    rw [lowLevelInput, hget]
    rfl
  rw [lwipPktHandle, ethernetifInput, hinput]
  simp only
  cases (takeFrame net w.stack h).p with
  | none => simp
  | some p => rfl

/-- The descriptor that has been taken goes back, and no other. -/
theorem takeFrame_received (net : Netif σ) (s : σ) (h : Eth) :
    (takeFrame net s (received h)).released = [h.rxDesc] ∧
      (takeFrame net s (received h)).eth.rxTab =
        Function.update h.rxTab h.rxDesc ((h.rxTab h.rxDesc).setStatus ethDmaRxDescOwn) := by
  obtain ⟨hreleased, hrxTab, -⟩ := takeFrame_released net s (received h)
  refine ⟨hreleased, ?_⟩
  funext e
  rw [hrxTab e]
  show (if e ∈ [h.rxDesc] then (h.rxTab e).setStatus ethDmaRxDescOwn else h.rxTab e) = _
  by_cases he : e = h.rxDesc
  · subst he
    rw [if_pos (List.mem_singleton_self _), Function.update_self]
  · rw [if_neg fun hmem => he (List.mem_singleton.mp hmem), Function.update_of_ne he]

theorem lwipPktHandle_taken (net : Netif σ) {w : Board σ} {f : Frame} (hl : w.eth.lock = .unlocked)
    (hseg : w.eth.rxFrameInfos.segCount = 0)
    (hlast : (w.eth.rxTab w.eth.rxDesc).status = f.last)
    (hsize : ethGetRxPktSize (w.eth.rxTab w.eth.rxDesc) ≠ 0) :
    Taken net w f (lwipPktHandle net w) := by
  obtain ⟨hown, -, hls, -⟩ := ethGetRxPktSize_ne_zero_iff.mp hsize
  have hlen : frameLength (received w.eth).rxFrameInfos = f.length := by
    rw [frameLength, received, Frame.length, Frame.fl, ← hlast]
  have hrest := takeFrame_released net w.stack (received w.eth)
  obtain ⟨hreleased, hrxTab⟩ := takeFrame_received net w.stack w.eth
  have hstack := takeFrame_stack net w.stack (received w.eth)
  rw [hlen] at hstack
  rw [lwipPktHandle_ok net (halEthGetReceivedFrame_last hl hseg hown hls)]
  refine ⟨congrArg (w.released ++ ·) hreleased, hrest.rxDesc, hrxTab, hrest.lock, hrest.segCount,
    hrest.mem, ?_⟩
  simp only
  cases ha : (net.alloc w.stack f.length).1 with
  | none =>
    left
    rw [takeFrame_none net (by rw [hlen]; exact ha)]
    exact ⟨rfl, List.append_nil _, hstack⟩
  | some p =>
    right
    obtain ⟨p', hp', hlens, hpayload, -⟩ := takeFrame_some net (by rw [hlen]; exact ha) rfl
    rw [hlen] at hpayload
    rw [hp']
    exact ⟨p, p', rfl, hlens, hpayload, rfl, by rw [hstack]⟩

/-! ### The frames that are left -/

theorem linked_update {tab : Nat → EthDmaDesc} {buff size count : Nat}
    (h : Linked tab buff size count)
    (d : Nat) (mask : BitVec 32) :
    Linked (Function.update tab d ((tab d).setStatus mask)) buff size count :=
  ⟨fun i hi => (update_links tab d mask i).1.trans (h.next i hi),
    fun i hi => (update_links tab d mask i).2.trans (h.buffer i hi)⟩

/-- The first of the frames starts at the next descriptor. -/
theorem Holds.head {h : Eth} {f : Frame} {fs : List Frame} (hold : Holds h (f :: fs)) :
    f.statuses.head? = some (h.rxTab h.rxDesc).status := by
  have hstatuses := congrArg List.head? hold.statuses
  have hne : f.statuses ≠ [] := List.append_ne_nil_of_right_ne_nil _ (List.cons_ne_nil _ _)
  obtain ⟨s, ss, hs⟩ := List.exists_cons_of_ne_nil hne
  rw [List.flatMap_cons, hs, List.cons_append, List.length_cons,
    List.range_succ_eq_map] at hstatuses
  rw [hs]
  exact hstatuses.symm

/-- With no frames left the next descriptor is the DMA's. -/
theorem Holds.nil {h : Eth} (hold : Holds h []) : ethGetRxPktSize (h.rxTab h.rxDesc) = 0 := by
  have hown := hold.rest 0 (Nat.zero_le _) (by decide)
  by_contra hsize
  rw [walk_zero, (ethGetRxPktSize_ne_zero_iff.mp hsize).1] at hown
  cases hown

section Step
variable {net : Netif σ} {w w' : Board σ} {f : Frame} {fs : List Frame} {buff : Nat}

theorem Taken.walk_eq (ht : Taken net w f w') : walk w'.eth.rxTab = walk w.eth.rxTab := by
  rw [ht.rxTab, walk_update]

theorem Taken.ring (ht : Taken net w f w') (hring : Linked w.eth.rxTab buff ethRxBufSize ethRxBufNb)
    (hd : w.eth.rxDesc < ethRxBufNb) :
    Linked w'.eth.rxTab buff ethRxBufSize ethRxBufNb ∧ w'.eth.rxDesc < ethRxBufNb := by
  refine ⟨?_, ?_⟩
  · rw [ht.rxTab]
    exact linked_update hring _ _
  · rw [ht.rxDesc]
    exact walk_lt hring hd 1

theorem Taken.frameBytes_eq (ht : Taken net w f w') : frameBytes w'.eth = frameBytes w.eth := by
  have hbuffer : bufferAt w'.eth.rxTab = bufferAt w.eth.rxTab := by
    rw [ht.rxTab]
    exact bufferAt_congr (fun d => (update_links _ _ _ d).1) fun d => (update_links _ _ _ d).2
  funext d len
  rw [frameBytes, frameBytes, hbuffer, ht.mem]

/-- The other frames stay where they are. -/
theorem Taken.holds (ht : Taken net w f w')
    (hring : Linked w.eth.rxTab buff ethRxBufSize ethRxBufNb)
    (hd : w.eth.rxDesc < ethRxBufNb) (hsingle : f.front = []) (hold : Holds w.eth (f :: fs)) :
    Holds w'.eth fs := by
  have hlist : (f :: fs).flatMap Frame.statuses = f.last :: fs.flatMap Frame.statuses := by
    rw [List.flatMap_cons, Frame.statuses, hsingle]
    rfl
  obtain ⟨hfits, hstatuses, hrest⟩ := hold
  rw [hlist, List.length_cons] at hfits hrest
  rw [hlist, List.length_cons, List.range_succ_eq_map, List.map_cons, List.map_map] at hstatuses
  have hwalk : ∀ i, walk w'.eth.rxTab w'.eth.rxDesc i = walk w.eth.rxTab w.eth.rxDesc (i + 1) := by
    intro i
    rw [ht.walk_eq, ht.rxDesc, ← walk_add, Nat.add_comm]
  have hother : ∀ i, i + 1 < ethRxBufNb →
      w'.eth.rxTab (walk w'.eth.rxTab w'.eth.rxDesc i) =
        w.eth.rxTab (walk w.eth.rxTab w.eth.rxDesc (i + 1)) := by
    intro i hi
    rw [hwalk, ht.rxTab, Function.update_of_ne]
    intro heq
    cases walk_inj hring hd hi (Nat.zero_lt_of_lt hi) heq
  refine ⟨by omega, ?_, fun i hi hlt => ?_⟩
  · refine Eq.trans (List.map_congr_left fun i hi => ?_) (List.cons.inj hstatuses).2
    rw [hother i (by have := List.mem_range.mp hi; omega)]
    rfl
  · by_cases hlast : i + 1 < ethRxBufNb
    · rw [hother i hlast]
      exact hrest (i + 1) (by omega) hlast
    · -- the walk comes back to the descriptor just given to the DMA
      have hround : i + 1 = ethRxBufNb := by omega
      rw [hwalk, hround, walk_count hring hd, ht.rxTab, Function.update_self]
      exact flagged_or (by decide) _

/-- What the rest of the loop gives back, behind the descriptor of the frame. -/
theorem Taken.released_iff (ht : Taken net w f w') (hsingle : f.front = []) (l : List Nat) :
    l = w'.released ++
      (List.range (fs.flatMap Frame.statuses).length).map (walk w'.eth.rxTab w'.eth.rxDesc) ↔
      l = w.released ++
        (List.range ((f :: fs).flatMap Frame.statuses).length).map
          (walk w.eth.rxTab w.eth.rxDesc) := by
  have hlen :
      ((f :: fs).flatMap Frame.statuses).length = (fs.flatMap Frame.statuses).length + 1 := by
    rw [List.flatMap_cons, Frame.statuses, hsingle]
    rfl
  have hlist : [w.eth.rxDesc] ++
      (List.range (fs.flatMap Frame.statuses).length).map (walk w'.eth.rxTab w'.eth.rxDesc) =
      (List.range ((f :: fs).flatMap Frame.statuses).length).map
        (walk w.eth.rxTab w.eth.rxDesc) := by
    rw [hlen, List.range_succ_eq_map, List.map_cons, List.map_map]
    refine congrArg (w.eth.rxDesc :: ·) (List.map_congr_left fun i _ => ?_)
    rw [ht.walk_eq, ht.rxDesc, ← walk_add, Nat.add_comm, Function.comp_apply]
  rw [ht.released, List.append_assoc, hlist]

/-- A frame, and then the others. -/
theorem Taken.emptied {w'' : Board σ} (ht : Taken net w f w') (hplain : f.Plain)
    (he : Emptied net w' fs w'') : Emptied net w (f :: fs) w'' := by
  obtain ⟨hreleased, howned, hseg, ps, hps, hdelivers⟩ := he
  rw [ht.frameBytes_eq, ht.walk_eq, ht.rxDesc] at hdelivers
  refine ⟨(ht.released_iff hplain.single _).mp hreleased, howned, hseg, ?_⟩
  have hskip : f.statuses.length = 1 := by rw [Frame.statuses, hplain.single]; rfl
  rw [← hskip] at hdelivers
  rcases ht.passed with ⟨ha, hpassed, hstack⟩ | ⟨p, p', ha, hlens, hbytes, hpassed, hstack⟩
  · rw [hpassed] at hps
    rw [hstack] at hdelivers
    exact ⟨ps, hps, .refused ha hdelivers⟩
  · rw [hpassed, List.append_assoc] at hps
    rw [hstack] at hdelivers
    exact ⟨p' :: ps, hps, .passed ha hlens hbytes hdelivers⟩

end Step

/-! ### The loop -/

section Loop
variable {net : Netif σ} {w : Board σ} {fs : List Frame} {buff : Nat}

/-- With frames of the plain kind alone, every pass of the loop takes the next one out. -/
theorem ethIrqLoop_plain (hring : Linked w.eth.rxTab buff ethRxBufSize ethRxBufNb)
    (hd : w.eth.rxDesc < ethRxBufNb) (hseg : w.eth.rxFrameInfos.segCount = 0)
    (hold : Holds w.eth fs)
    (hl : fs = [] ∨ w.eth.lock = .unlocked) (hplain : ∀ f ∈ fs, f.Plain) :
    ∃ w', ethIrqLoop net (fs.length + 1) w = some w' ∧ Emptied net w fs w' := by
  induction fs generalizing w with
  | nil =>
    refine ⟨w, if_neg (not_not_intro hold.nil), (List.append_nil _).symm, fun d hlt => ?_, hseg, [],
      (List.append_nil _).symm, .nil _ _⟩
    obtain ⟨i, hi, rfl⟩ := exists_walk hring hd hlt
    exact hold.rest i (Nat.zero_le _) hi
  | cons f fs ih =>
    have hunlocked := hl.resolve_left (List.cons_ne_nil f fs)
    have hf := hplain f List.mem_cons_self
    have hhead := hold.head
    rw [Frame.statuses, hf.single] at hhead
    have hlast : (w.eth.rxTab w.eth.rxDesc).status = f.last := (Option.some.inj hhead).symm
    have hsize : ethGetRxPktSize (w.eth.rxTab w.eth.rxDesc) ≠ 0 := by
      rw [ethGetRxPktSize_ne_zero_iff, EthDmaDesc.flag, EthDmaDesc.flag, EthDmaDesc.flag, hlast]
      exact ⟨f.own _ (List.mem_append_right _ List.mem_cons_self), hf.sound, f.ls.1, hf.fl⟩
    have ht := lwipPktHandle_taken net hunlocked hseg hlast hsize
    obtain ⟨hring', hd'⟩ := ht.ring hring hd
    obtain ⟨w', hloop, hemptied⟩ := ih hring' hd' ht.segCount (ht.holds hring hd hf.single hold)
      (.inr ht.lock) fun g hg => hplain g (List.mem_cons_of_mem _ hg)
    refine ⟨w', ?_, ht.emptied hf hemptied⟩
    rw [List.length_cons, ethIrqLoop, if_pos hsize]
    exact hloop

/-- If the loop comes to an end and all descriptors have been given back, there was no other frame,
and the program did not have the handle. -/
theorem plain_of_released {n : Nat} {w' : Board σ}
    (hring : Linked w.eth.rxTab buff ethRxBufSize ethRxBufNb) (hd : w.eth.rxDesc < ethRxBufNb)
    (hseg : w.eth.rxFrameInfos.segCount = 0) (hold : Holds w.eth fs)
    (hloop : ethIrqLoop net n w = some w')
    (hreleased : w'.released = w.released ++
      (List.range (fs.flatMap Frame.statuses).length).map (walk w.eth.rxTab w.eth.rxDesc)) :
    (fs = [] ∨ w.eth.lock = .unlocked) ∧ ∀ f ∈ fs, f.Plain := by
  induction n generalizing w fs with
  | zero => cases hloop
  | succ n ih =>
    rw [ethIrqLoop] at hloop
    cases fs with
    | nil => exact ⟨.inl rfl, fun f hf => by cases hf⟩
    | cons f fs =>
      by_cases hsize : ethGetRxPktSize (w.eth.rxTab w.eth.rxDesc) ≠ 0
      · rw [if_pos hsize] at hloop
        cases hlock : w.eth.lock with
        | locked =>
          -- another pass in the same state
          rw [lwipPktHandle_locked net hlock] at hloop
          have hrest := ih hring hd hseg hold hloop hreleased
          rw [hlock] at hrest
          exact hrest
        | unlocked =>
          obtain ⟨hown, hes, hls, hfl⟩ := ethGetRxPktSize_ne_zero_iff.mp hsize
          have hhead := hold.head
          have hsingle : f.front = [] := by
            cases hfront : f.front with
            | nil => rfl
            | cons s ss =>
              rw [Frame.statuses, hfront] at hhead
              have hfirst := f.ls.2 s (by rw [hfront]; exact List.mem_cons_self)
              rw [Option.some.inj hhead, ← EthDmaDesc.flag, hls] at hfirst
              cases hfirst
          rw [Frame.statuses, hsingle] at hhead
          have hlast : (w.eth.rxTab w.eth.rxDesc).status = f.last := (Option.some.inj hhead).symm
          have ht := lwipPktHandle_taken net hlock hseg hlast hsize
          obtain ⟨hring', hd'⟩ := ht.ring hring hd
          have hrest := ih hring' hd' ht.segCount (ht.holds hring hd hsingle hold) hloop
            ((ht.released_iff hsingle _).mpr hreleased)
          refine ⟨.inr rfl, fun g hg => ?_⟩
          rcases List.mem_cons.mp hg with rfl | hg
          · rw [EthDmaDesc.flag, hlast] at hes
            rw [hlast] at hfl
            exact ⟨hsingle, hes, hfl⟩
          · exact hrest.2 g hg
      · -- nothing has been taken, and so nothing has been given back
        rw [if_neg hsize] at hloop
        cases hloop
        have hnone := List.append_right_eq_self.mp hreleased.symm
        rw [List.map_eq_nil_iff, List.range_eq_nil] at hnone
        rw [List.flatMap_cons, Frame.statuses, List.length_append, List.length_append,
          List.length_singleton] at hnone
        omega

end Loop

/-- **The interrupt empties the ring** exactly when every frame has a descriptor to itself, no
errors and a length, and the handle is free for it. -/
theorem empties_iff (net : Netif σ) {w : Board σ} {buff : Nat}
    (hring : Linked w.eth.rxTab buff ethRxBufSize ethRxBufNb) (hd : w.eth.rxDesc < ethRxBufNb)
    (hseg : w.eth.rxFrameInfos.segCount = 0) {fs : List Frame} (hold : Holds w.eth fs) :
    Empties net w fs ↔ (fs = [] ∨ w.eth.lock = .unlocked) ∧ ∀ f ∈ fs, f.Plain := by
  constructor
  · rintro ⟨n, w', hrun, hemptied⟩
    obtain ⟨w'', hloop, rfl⟩ := Option.map_eq_some_iff.mp hrun
    exact plain_of_released hring hd hseg hold hloop hemptied.released
  · rintro ⟨hl, hplain⟩
    obtain ⟨w', hloop, hreleased, howned, hcount, hpassed⟩ :=
      ethIrqLoop_plain hring hd hseg hold hl hplain
    exact ⟨fs.length + 1, _, Option.map_eq_some_iff.mpr ⟨w', hloop, rfl⟩, hreleased, howned, hcount,
      hpassed⟩

/-- A stack that gives out one segment and takes everything. -/
def taker : Netif Unit where
  pbufAlloc s len := (some [⟨fun _ => 0, len⟩], s)
  totLen_pbufAlloc := by
    rintro s len p ⟨⟩
    exact Nat.add_zero len
  input s _ := (.ok, s)
  pbufFree s _ := s

/-- A fresh ring in which the DMA has handed back these frames. -/
def handedBack (fs : List Frame) : Eth :=
  let h := (halEthDmaRxDescListInit 0 ethRxBufNb resetEth).2
  { h with rxTab := fun d =>
      { h.rxTab d with status := (fs.flatMap Frame.statuses).getD d (h.rxTab d).status } }

theorem handedBack_linked (fs : List Frame) :
    Linked (handedBack fs).rxTab 0 ethRxBufSize ethRxBufNb :=
  have h := (halEthDmaRxDescListInit_linked (h := resetEth) rfl 0 (show 0 < ethRxBufNb by decide)).1
  ⟨h.next, h.buffer⟩

theorem handedBack_holds {fs : List Frame}
    (hfits : (fs.flatMap Frame.statuses).length ≤ ethRxBufNb) :
    Holds (handedBack fs) fs := by
  have hwalk : ∀ i, i < ethRxBufNb → walk (handedBack fs).rxTab (handedBack fs).rxDesc i = i := by
    intro i hi
    have hzero : (handedBack fs).rxDesc = 0 := rfl
    rw [hzero, walk_eq (handedBack_linked fs) (by decide), Nat.zero_add, Nat.mod_eq_of_lt hi]
  have hfresh : ∀ i, i < ethRxBufNb →
      ((halEthDmaRxDescListInit 0 ethRxBufNb resetEth).2.rxTab i).flag ethDmaRxDescOwn = true := by
        decide
  refine ⟨hfits, List.ext_getElem (by simp) fun i hi hi' => ?_, fun i hi hlt => ?_⟩
  · rw [List.getElem_map, List.getElem_range, hwalk i (Nat.lt_of_lt_of_le hi' hfits)]
    exact List.getD_eq_getElem _ _ hi'
  · rw [hwalk i hlt, EthDmaDesc.flag]
    show flagged ((fs.flatMap Frame.statuses).getD i _) _ = true
    rw [List.getD_eq_default _ _ hi]
    exact hfresh i hlt

/-- A frame in one descriptor. -/
def Frame.single (s : BitVec 32) (hown : flagged s ethDmaRxDescOwn = false)
    (hls : flagged s ethDmaRxDescLs = true) (hfs : flagged s ethDmaRxDescFs = true) : Frame where
  front := []
  last := s
  own t ht := by rw [List.mem_singleton.mp ht, hown]
  ls := ⟨hls, fun t ht => by cases ht⟩
  fs := congrArg ([·]) hfs

/-- 64 bytes. -/
def shortFrame : Frame := .single 0x00400300 rfl rfl rfl

/-- The same with an error, which the error summary shows. -/
def brokenFrame : Frame := .single 0x00408300 rfl rfl rfl

theorem empties_one : Empties taker ⟨handedBack [shortFrame], (), [], []⟩ [shortFrame] :=
  (empties_iff taker (handedBack_linked _) (by decide) rfl (handedBack_holds (by decide))).mpr
    ⟨.inr rfl, fun f hf => by
      rw [List.mem_singleton.mp hf]
      exact ⟨rfl, rfl, by decide⟩⟩

/-- Behind a frame with an error a good one stays in the ring. -/
theorem broken_wedges :
    Linked (handedBack [brokenFrame, shortFrame]).rxTab 0 ethRxBufSize ethRxBufNb ∧
      (handedBack [brokenFrame, shortFrame]).lock = .unlocked ∧
      (handedBack [brokenFrame, shortFrame]).rxFrameInfos.segCount = 0 ∧
      Holds (handedBack [brokenFrame, shortFrame]) [brokenFrame, shortFrame] ∧
      ¬ Empties taker ⟨handedBack [brokenFrame, shortFrame], (), [], []⟩ [brokenFrame,
        shortFrame] := by
  have hold : Holds (handedBack [brokenFrame, shortFrame]) [brokenFrame, shortFrame] :=
    handedBack_holds (by decide)
  refine ⟨handedBack_linked _, rfl, rfl, hold, fun ⟨n, w', hrun, hemptied⟩ => ?_⟩
  obtain ⟨w'', hloop, rfl⟩ := Option.map_eq_some_iff.mp hrun
  have hplain :=
    plain_of_released (handedBack_linked _) (by decide) rfl hold hloop hemptied.released
  have hsound : brokenFrame.erroneous = false := (hplain.2 _ List.mem_cons_self).sound
  exact absurd hsound (by decide)

end Stm32F4.Ethernetif
