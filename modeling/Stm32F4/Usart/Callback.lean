import Stm32F4.Usart.Clean

/-! The bytes `com->func` is given.

The address and the count are passed by value, so an exchange of the buffers during the call
does not change what `func` looks at. It does change who writes there: after a full
window the stream starts on the array `func` was given, and the next byte goes over the
first one it is reading. Up to then the bytes stay (`callback_stable`). -/
namespace Stm32F4.Usart
open Hal Lib

/-- What can happen while `com->func` runs, on a line without errors. -/
def Event.duringCall : Event → Bool
  | .rxByte _ | .dmaRxIrq => true
  | .usartIrq sr => !sr.errors
  | _ => false

theorem Event.clean_of_duringCall {e : Event} (h : e.duringCall = true) : e.clean = true := by
  cases e <;> first | rfl | exact h

namespace World

/-- Through all of the events the bytes of the call keep their values. -/
def Stable (w : World) (c : Call) (cs : List Event) : Prop :=
  ∀ n, firstCells (((cs.take n).foldl step w).port.bytes c.buf) c.count =
    firstCells (w.port.bytes c.buf) c.count

/-- No byte is received while the stream is on the array `b`. -/
def Spares (b : Buf) (w : World) : Event → Prop
  | .rxByte _ => w.port.dmaBuff ≠ b
  | _ => True

instance (b : Buf) (w : World) : (e : Event) → Decidable (Spares b w e)
  | .rxByte _ => inferInstanceAs (Decidable (_ ≠ _))
  | .usartIrq _ | .dmaRxIrq | .dmaTxIrq | .txByte | .sendStr .. | .enter | .leave =>
    inferInstanceAs (Decidable True)

/-- Part way through a call that began with the contents `f` of its array. -/
structure Calling (c : Call) (f : Nat → UInt8) (w : World) : Prop where
  clean : w.Clean
  main : w.main = some c
  bytes : w.port.bytes c.buf = f
  /-- if the stream is on the array of the call, it has not stored anything there yet -/
  fresh : w.port.dmaBuff = c.buf → w.port.counted = 0

variable {w : World} {c : Call} {f : Nat → UInt8}

theorem calling_step (w : World) (e : Event) (h : Calling c f w)
    (hok : e.duringCall = true ∧ Spares c.buf w e) : Calling c f (w.step e) := by
  have he := Event.clean_of_duringCall hok.1
  have hclean := clean_step w e h.clean he
  have heff := effect h.clean.inv h.clean.sound he
  obtain ⟨m, hm⟩ := h.clean.inv.window
  have hspares := hok.2
  have hduring := hok.1
  generalize w.step e = w' at heff hclean
  cases heff with
  | kept e u wire accepted hn =>
    refine ⟨hclean, h.main, h.bytes, fun hd => ?_⟩
    have hfresh := h.fresh hd
    unfold Port.counted Port.ndtr at hfresh ⊢
    rw [← hfresh]
    exact congrArg (fun n => w.port.dmaReceiveCount + (w.port.dmaReceiveSize - n)) hn
  | stored b u hroom hn =>
    have hne : w.port.dmaBuff ≠ c.buf := hspares
    refine ⟨hclean, h.main, ?_, fun hd => absurd hd hne⟩
    show Function.update w.port.bytes w.port.dmaBuff _ c.buf = f
    rw [Function.update_of_ne hne.symm]
    exact h.bytes
  | exchanged sr u hi hp hn =>
    have hidle := h.clean.inv.idle_of_processed hp
    rw [h.main] at hidle
    cases hidle
  | appended sr u hi hp hn =>
    refine ⟨hclean, h.main, h.bytes, fun hd => ?_⟩
    have hfresh := h.fresh hd
    have hcount := hm.counted_add_ndtr
    show w.port.counted + (usartReceiveMax - w.port.counted - u.hdmarx.ndtr) = 0
    rw [hn]
    omega
  | filled u hpend hfull hn =>
    refine ⟨hclean, h.main, h.bytes, fun _ => ?_⟩
    show 0 + (usartReceiveMax - u.hdmarx.ndtr) = 0
    rw [hn, Nat.sub_self]
  | entered p hm' hs hr =>
    rw [h.main] at hm'
    cases hm'
  | passedOver p hm' hs hr =>
    rw [h.main] at hm'
    cases hm'
  | left c' hm' => cases hduring

/-- A call is given the user's array and count. -/
theorem enter_call (hm : w.main = none) (hc : w.enter.main = some c) :
    c.buf = w.enter.port.buff ∧ c.count ≠ 0 := by
  by_cases hr : w.port.manageSwap.receiveCount = 0
  · rw [enter_of_empty hm hr] at hc
    exact absurd (hm.symm.trans hc) (Option.some_ne_none c).symm
  · rw [enter_of_filled hm hr] at hc ⊢
    cases hc
    exact ⟨rfl, hr⟩

/-- Entering `com->func`: its array is the user's, which the stream is not on. -/
theorem calling_enter (h : w.Clean) (hm : w.main = none) (hc : w.enter.main = some c) :
    Calling c (w.enter.port.bytes c.buf) w.enter := by
  have hclean : w.enter.Clean := clean_step w .enter h rfl
  obtain ⟨m, hwin⟩ := hclean.inv.window
  refine ⟨hclean, hc, rfl, fun hd => ?_⟩
  have hbuf := (enter_call hm hc).1
  exact absurd (hbuf.symm.trans hd.symm) hwin.distinct

/-- The first byte that reaches the array of the call can change it. -/
theorem calling_overwrite (h : Calling c f w) (hd : w.port.dmaBuff = c.buf) (b : UInt8) :
    (w.step (.rxByte b)).port.bytes c.buf = Function.update f 0 b := by
  obtain ⟨m, hm⟩ := h.clean.inv.window
  have hfresh := h.fresh hd
  have hroom : 0 < w.port.ndtr := by
    have := hm.counted_add_ndtr
    have := usartReceiveMax_pos
    omega
  show (w.rxByte b).port.bytes c.buf = _
  unfold rxByte
  rw [Port.rxDmaStore_sound h.clean.sound, if_pos hroom]
  show Function.update w.port.bytes w.port.dmaBuff _ c.buf = _
  rw [hd, Function.update_self, hfresh, h.bytes]

/-- **What `com->func` is given stays**, whatever happens during the call, as long as no byte is
received while the stream is on the array of the call; and a run of events that breaks
this can change the bytes. -/
theorem callback_stable (com : Com) (es : List Event) (hclean : ∀ e ∈ es, e.clean = true)
    (hm : (run com es).main = none) (c : Call) (hc : (run com es).enter.main = some c)
    (cs : List Event) (hcs : ∀ e ∈ cs, e.duringCall = true) :
    (Along step (Spares c.buf) (run com es).enter cs → Stable (run com es).enter c cs) ∧
      (¬ Along step (Spares c.buf) (run com es).enter cs →
        ∃ n b, ¬ Stable (run com es).enter c (cs.take n ++ [.rxByte b])) := by
  have hstart := calling_enter (clean_run com hclean) hm hc
  have hcount : 0 < c.count := Nat.pos_of_ne_zero (enter_call hm hc).2
  have hrun : ∀ as, (∀ e ∈ as, e.duringCall = true) →
      Along step (Spares c.buf) (run com es).enter as →
      Calling c ((run com es).enter.port.bytes c.buf) (as.foldl step (run com es).enter) :=
    fun as has hok => Along.invariant calling_step
      ((along_of_forall (p := fun e : Event => e.duringCall = true) _ has).and hok) hstart
  constructor
  · intro hok n
    rw [(hrun (cs.take n) (fun e he => hcs e (List.mem_of_mem_take he)) (hok.take n)).bytes]
  · intro hbad
    obtain ⟨as, e, bs, rfl, has, he⟩ := exists_first hbad
    have hcall := hrun as (fun e he => hcs e (List.mem_append_left _ he)) has
    cases e with
    | rxByte x =>
      have hd : (as.foldl step (run com es).enter).port.dmaBuff = c.buf := by
        by_contra hne
        exact he hne
      refine ⟨as.length, (run com es).enter.port.bytes c.buf 0 + 1, fun hstable => ?_⟩
      have hlast := hstable (as.length + 1)
      rw [List.take_left, List.take_of_length_le (by simp), List.foldl_append] at hlast
      have hover := calling_overwrite hcall hd ((run com es).enter.port.bytes c.buf 0 + 1)
      rw [List.foldl_cons, List.foldl_nil, hover] at hlast
      have hfirst := firstCells_eq_iff.mp hlast 0 hcount
      rw [Function.update_self] at hfirst
      exact absurd hfirst (by simp)
    | _ => exact absurd trivial he

/-- The DMA buffer fills up, and its interrupt exchanges the buffers. -/
def arrayFilled : List Event :=
  (List.range usartReceiveMax).map (fun i => .rxByte (UInt8.ofNat i)) ++ [.dmaRxIrq]

/-- A frame of one byte and a call of `com->func` on it, during which the DMA buffer fills up and
the line goes idle. -/
theorem callback_stable_filled : Stable
    (run .usart1 [.rxByte 1, .usartIrq { idle := true }]).enter ⟨.buff2, 1⟩
      (arrayFilled ++ [.usartIrq { idle := true }]) :=
  (callback_stable .usart1 [.rxByte 1, .usartIrq { idle := true }] (by decide) rfl ⟨.buff2, 1⟩ rfl
    (arrayFilled ++ [.usartIrq { idle := true }]) (by decide +kernel)).1 (by decide +kernel)

/-- One more byte arrives then. -/
def callOverrun : List Event := arrayFilled ++ [.rxByte 2]

/-- The byte `func` was given is gone. -/
theorem callOverrun_unstable : (∀ e ∈ callOverrun, e.duringCall = true) ∧
    (run .usart1 [.rxByte 1, .usartIrq { idle := true }]).enter.main = some ⟨.buff2, 1⟩ ∧
    ¬ Stable (run .usart1 [.rxByte 1, .usartIrq { idle := true }]).enter ⟨.buff2, 1⟩
      callOverrun := by
  refine ⟨by decide +kernel, rfl, fun h => ?_⟩
  have hlast := h 52
  revert hlast
  decide +kernel

end World

end Stm32F4.Usart
