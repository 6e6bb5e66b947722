import Mathlib.Logic.Function.Basic
import Stm32F4.Lib.Bursts
import Stm32F4.Lib.Cells
import Stm32F4.Usart.Port

/-! The variant without the DMA (`USART_DMA_ENABLE` 0).

Every received byte is an interrupt, and `HAL_UART_RxCpltCallback` stores it. The end of a
frame is not seen by anything: `receive_str_manage` compares `receive_count` with what
it was one call earlier, and a call that finds it unchanged takes the frame for
complete. So a port passes on bursts in the sense of `Lib/Bursts.lean` as long as none
of them fills the array (`collecting_feed`). One that does is lost, since
`receive_count` is back at zero (`short_feed`). -/
namespace Stm32F4.Usart.ByteWise
open Lib

/-- `STUsart` of this variant. -/
structure Port where
  /-- which of the six `USART_Handler.Instance` is -/
  com : Com
  receiveCount : Nat
  /-- the contents of `buff1`, which `buff` points to -/
  buff : Nat → UInt8
  /-- `temp_buff[0]` -/
  tempBuff : UInt8

/-- The two static variables `receive_str_manage` keeps for a port. -/
structure Counters where
  tmp : Nat
  state : Nat
deriving DecidableEq

def Port.halUartRxCpltCallback (p : Port) : Port :=
  let p := { p with
    buff := Function.update p.buff p.receiveCount p.tempBuff
    receiveCount := u16 (p.receiveCount + 1) }
  { p with receiveCount := p.receiveCount % usartReceiveMax }

/-- `memset(com->buff, 0, USART_RECEIVE_MAX)` -/
def cleared (buff : Nat → UInt8) : Nat → UInt8 := fun i => if i < usartReceiveMax then 0 else buff i

/-- `func` stands for `com->func`, with whatever `store` points to. The six branches are the
same code, each on the counters of its own port. -/
def Port.receiveStrManage {σ : Type} (func : (Nat → UInt8) → Nat → σ → UInt8 × σ) (store : σ)
    (statics : Com → Counters) (p : Port) : UInt8 × σ × (Com → Counters) × Port :=
  let c := statics p.com
  if p.receiveCount ≠ c.tmp then
    (0, store, Function.update statics p.com ⟨p.receiveCount, u8 (c.state + 1)⟩, p)
  else if 0 < c.state then
    let r := func p.buff p.receiveCount store
    (r.1, r.2, Function.update statics p.com ⟨0, 0⟩,
      { p with buff := cleared p.buff, receiveCount := 0 })
  else (0, store, statics, p)

/-- A port, the static counters of all six, and what `com->func` was given so far. -/
structure Line where
  port : Port
  statics : Com → Counters
  passed : List (List UInt8)

namespace Line

/-- A byte arrives in `temp_buff[0]`. -/
def rxByte (w : Line) (b : UInt8) : Line :=
  { w with port := { w.port with tempBuff := b }.halUartRxCpltCallback }

/-- A call of `receive_str_manage`, with a `com->func` that writes down what it is given. -/
def poll (w : Line) : Line :=
  let r :=
    w.port.receiveStrManage (fun buff n log => (0, log ++ [firstCells buff n])) w.passed w.statics
  ⟨r.2.2.2, r.2.2.1, r.2.1⟩

/-- The bytes that arrive between two calls, and the second call. -/
def interval (w : Line) (c : List UInt8) : Line := (c.foldl rxByte w).poll

def feed (w : Line) (cs : List (List UInt8)) : Line := cs.foldl interval w

def counters (w : Line) : Counters := w.statics w.port.com

/-- Nothing has been received, as far as the port knows. -/
structure Idle (w : Line) : Prop where
  receiveCount : w.port.receiveCount = 0
  counters : w.counters = ⟨0, 0⟩

/-- The bytes of `cur` are in the array, and the last call has seen them. -/
structure Collecting (cur : List UInt8) (w : Line) : Prop where
  count : w.port.receiveCount = cur.length
  short : cur.length < usartReceiveMax
  bytes : firstCells w.port.buff cur.length = cur
  tmp : w.counters.tmp = cur.length
  state_le : w.counters.state ≤ cur.length
  state_pos : 0 < w.counters.state ↔ cur ≠ []

variable {w : Line} {cur : List UInt8}

theorem collecting_nil_iff : Collecting [] w ↔ w.Idle := by
  constructor
  · intro h
    refine ⟨h.count, ?_⟩
    have htmp : w.counters.tmp = 0 := h.tmp
    have hstate : w.counters.state = 0 := Nat.le_zero.mp h.state_le
    calc
      w.counters = ⟨w.counters.tmp, w.counters.state⟩ := rfl
      _ = ⟨0, 0⟩ := by rw [htmp, hstate]
  · intro h
    have hc := h.counters
    refine ⟨h.receiveCount, usartReceiveMax_pos, rfl, ?_, ?_, ?_⟩
    · rw [hc]
      rfl
    · rw [hc]
      exact Nat.le_refl 0
    · simp [hc]

/-! ### Bytes -/

/-- Short of the whole array the bytes are appended and counted. -/
theorem rxBytes (c : List UInt8) (w : Line) (h : w.port.receiveCount + c.length < usartReceiveMax) :
    (c.foldl rxByte w).port.receiveCount = w.port.receiveCount + c.length ∧
      firstCells (c.foldl rxByte w).port.buff (w.port.receiveCount + c.length) =
        firstCells w.port.buff w.port.receiveCount ++ c ∧
      (c.foldl rxByte w).counters = w.counters ∧ (c.foldl rxByte w).port.com = w.port.com ∧
      (c.foldl rxByte w).passed = w.passed := by
  induction c generalizing w with
  | nil => simp
  | cons b c ih =>
    rw [List.length_cons] at h
    have hcount : (w.rxByte b).port.receiveCount = w.port.receiveCount + 1 := by
      show u16 (w.port.receiveCount + 1) % usartReceiveMax = _
      simp only [u16, usartReceiveMax] at h ⊢
      omega
    have hbytes : firstCells (w.rxByte b).port.buff (w.port.receiveCount + 1) =
        firstCells w.port.buff w.port.receiveCount ++ [b] := firstCells_update_self _ _ _
    obtain ⟨h1, h2, h3, h4, h5⟩ := ih (w.rxByte b) (by rw [hcount]; omega)
    rw [hcount] at h1 h2
    rw [hbytes] at h2
    rw [List.foldl_cons, List.length_cons, show w.port.receiveCount + (c.length + 1) =
      w.port.receiveCount + 1 + c.length by omega]
    refine ⟨h1, ?_, h3, h4, h5⟩
    rw [h2, List.append_assoc]
    rfl

/-! ### One interval -/

/-- A call that finds nothing new, and nothing before it. -/
theorem poll_idle (hsame : w.port.receiveCount = w.counters.tmp) (hstate : w.counters.state = 0) :
    w.poll = w := by
  unfold poll Port.receiveStrManage
  simp only [show w.statics w.port.com = w.counters from rfl, hsame, hstate, ne_eq,
    not_true_eq_false, if_false, Nat.lt_irrefl]

/-- One that finds nothing new after something was received. -/
theorem poll_pause (hsame : w.port.receiveCount = w.counters.tmp) (hstate : 0 < w.counters.state) :
    w.poll = ⟨{ w.port with buff := cleared w.port.buff, receiveCount := 0 },
      Function.update w.statics w.port.com ⟨0, 0⟩,
      w.passed ++ [firstCells w.port.buff w.port.receiveCount]⟩ := by
  unfold poll Port.receiveStrManage
  simp only [show w.statics w.port.com = w.counters from rfl, hsame, hstate, ne_eq,
    not_true_eq_false, if_false, if_true]

/-- One that finds the count changed. -/
theorem poll_changed (hne : w.port.receiveCount ≠ w.counters.tmp) :
    w.poll =
      ⟨w.port,
      Function.update w.statics w.port.com ⟨w.port.receiveCount, u8 (w.counters.state + 1)⟩,
      w.passed⟩ := by
  unfold poll Port.receiveStrManage
  simp only [show w.statics w.port.com = w.counters from rfl, hne, ne_eq, not_false_eq_true,
    if_true]

/-- A pause hands over what has been collected. -/
theorem collecting_pause (h : Collecting cur w) :
    Collecting [] w.poll ∧ w.poll.passed = w.passed ++ closed cur [] := by
  have hsame : w.port.receiveCount = w.counters.tmp := by rw [h.count, h.tmp]
  by_cases hcur : cur = []
  · subst hcur
    rw [poll_idle hsame (Nat.le_zero.mp h.state_le)]
    exact ⟨h, (List.append_nil _).symm⟩
  · rw [poll_pause hsame (h.state_pos.mpr hcur), closed_pause hcur]
    refine ⟨collecting_nil_iff.mpr ⟨rfl, Function.update_self _ _ _⟩, ?_⟩
    show w.passed ++ [firstCells w.port.buff w.port.receiveCount] = _
    rw [h.count, h.bytes]

/-- A port that is not about to fill its array collects bursts. -/
theorem collecting_interval (h : Collecting cur w) (c : List UInt8)
    (hshort : cur.length + c.length < usartReceiveMax) :
    Collecting (stillOpen cur c) (w.interval c) ∧ (w.interval c).passed =
      w.passed ++ closed cur c := by
  by_cases hc : c = []
  · subst hc
    exact collecting_pause h
  · obtain ⟨hcount, hbytes, hcounters, hcom, hpassed⟩ := rxBytes c w (by rw [h.count]; exact hshort)
    rw [h.count] at hcount
    rw [h.count, h.bytes] at hbytes
    unfold interval
    generalize c.foldl rxByte w = w' at hcount hbytes hcounters hcom hpassed
    have hlen : 0 < c.length := List.length_pos_iff.mpr hc
    have hle := h.state_le
    have hpoll := poll_changed (w := w') (by rw [hcount, hcounters, h.tmp]; omega)
    have hcounters' : w'.poll.counters = ⟨cur.length + c.length, w.counters.state + 1⟩ := by
      rw [hpoll]
      show Function.update w'.statics w'.port.com _ w'.port.com = _
      rw [Function.update_self, hcount, hcounters]
      -- at most one change for each byte of the array, so the eight bits suffice
      congr 1
      simp only [u8, usartReceiveMax] at hshort ⊢
      omega
    rw [stillOpen_of_ne hc, closed_of_ne hc]
    refine ⟨⟨?_, ?_, ?_, ?_, ?_, ?_⟩, ?_⟩
    · rw [hpoll, List.length_append]
      exact hcount
    · rw [List.length_append]
      exact hshort
    · rw [hpoll, List.length_append]
      exact hbytes
    · rw [hcounters', List.length_append]
    · rw [hcounters', List.length_append]
      show w.counters.state + 1 ≤ cur.length + c.length
      omega
    · rw [hcounters']
      simp [hc]
    · rw [hpoll, List.append_nil]
      exact hpassed

/-! ### Any number of intervals -/

/-- What arrives is passed on burst by burst, as long as it fits the array. -/
theorem collecting_feed (cs : List (List UInt8)) (h : Collecting cur w)
    (hshort : cur.length + cs.flatten.length < usartReceiveMax) :
    Collecting (cs.foldl stillOpen cur) (w.feed cs) ∧ (w.feed cs).passed =
      w.passed ++ bursts cur cs := by
  induction cs generalizing cur w with
  | nil => exact ⟨h, (List.append_nil _).symm⟩
  | cons c rest ih =>
    rw [List.flatten_cons, List.length_append] at hshort
    obtain ⟨hstep, hpassed⟩ := collecting_interval h c (by omega)
    have hle : (stillOpen cur c).length ≤ cur.length + c.length := by
      cases c <;> simp [stillOpen]
    obtain ⟨hrest, hpassed'⟩ := ih hstep (by omega)
    refine ⟨hrest, ?_⟩
    show ((w.interval c).feed rest).passed = _
    rw [hpassed', hpassed, bursts, List.append_assoc]

/-- `receive_count` is below `USART_RECEIVE_MAX`, and so is every count passed since. -/
structure Short (passed : List (List UInt8)) (w : Line) : Prop where
  count : w.port.receiveCount < usartReceiveMax
  passed : ∃ new, w.passed = passed ++ new ∧ ∀ l ∈ new, l.length < usartReceiveMax

theorem short_interval {passed : List (List UInt8)} (h : Short passed w) (c : List UInt8) :
    Short passed (w.interval c) := by
  have hbytes : Short passed (c.foldl rxByte w) := by
    induction c generalizing w with
    | nil => exact h
    | cons b c ih => exact ih ⟨Nat.mod_lt _ usartReceiveMax_pos, h.passed⟩
  unfold interval
  generalize c.foldl rxByte w = w' at hbytes
  by_cases hsame : w'.port.receiveCount = w'.counters.tmp
  · rcases Nat.eq_zero_or_pos w'.counters.state with hstate | hstate
    · rw [poll_idle hsame hstate]
      exact hbytes
    · obtain ⟨new, hpassed, hnew⟩ := hbytes.passed
      rw [poll_pause hsame hstate]
      refine ⟨usartReceiveMax_pos, new ++ [firstCells w'.port.buff w'.port.receiveCount], ?_,
        fun l hl => ?_⟩
      · rw [hpassed, List.append_assoc]
      · rcases List.mem_append.mp hl with hl | hl
        · exact hnew l hl
        · rw [List.mem_singleton.mp hl, length_firstCells]
          exact hbytes.count
  · rw [poll_changed hsame]
    exact ⟨hbytes.count, hbytes.passed⟩

theorem short_feed {passed : List (List UInt8)} (cs : List (List UInt8)) (h : Short passed w) :
    Short passed (w.feed cs) := by
  induction cs generalizing w with
  | nil => exact h
  | cons c rest ih => exact ih (short_interval h c)

/-! ### Every frame exactly once -/

/-- The intervals `cs` bring a frame. After enough calls `com->func` has been given the frame,
once and in full, and the port is idle again. -/
def Delivers (w : Line) (cs : List (List UInt8)) : Prop :=
  ∃ n, ∀ k, n ≤ k →
    (w.feed (cs ++ List.replicate k [])).passed = w.passed ++ [cs.flatten] ∧
      (w.feed (cs ++ List.replicate k [])).Idle

/-- A frame of the whole array is never passed on. -/
theorem Delivers.short {cs : List (List UInt8)} (h : w.Delivers cs) (hw : w.Idle) :
    cs.flatten.length < usartReceiveMax := by
  obtain ⟨n, hn⟩ := h
  have hstart : Short w.passed w :=
    ⟨by rw [hw.receiveCount]; exact usartReceiveMax_pos, [], (List.append_nil _).symm, by simp⟩
  obtain ⟨new, hnew, hlen⟩ := (short_feed (cs ++ List.replicate n []) hstart).passed
  rw [(hn n (Nat.le_refl n)).1] at hnew
  have hframe : [cs.flatten] = new := List.append_cancel_left hnew
  exact hlen cs.flatten (hframe ▸ List.mem_singleton_self _)

/-- **An idle port delivers a frame exactly once when the frame leaves a place of the array free
and no call falls into a pause between its first byte and its last**, and only then. -/
theorem delivers_iff (w : Line) (hw : w.Idle) (cs : List (List UInt8))
    (hpos : 0 < cs.flatten.length) :
    w.Delivers cs ↔ cs.flatten.length < usartReceiveMax ∧ Unbroken [] cs := by
  have hne : [] ++ cs.flatten ≠ [] := List.length_pos_iff.mp hpos
  have hfeed : ∀ k, cs.flatten.length < usartReceiveMax →
      (w.feed (cs ++ List.replicate (k + 1) [])).Idle ∧
        (w.feed (cs ++ List.replicate (k + 1) [])).passed =
          w.passed ++ bursts [] (cs ++ List.replicate (k + 1) []) := by
    intro k hshort
    have hrun := collecting_feed (cs ++ List.replicate (k + 1) []) (collecting_nil_iff.mpr hw)
      (by simpa using hshort)
    rw [foldl_paused] at hrun
    exact ⟨collecting_nil_iff.mp hrun.1, hrun.2⟩
  constructor
  · intro h
    have hshort := h.short hw
    obtain ⟨n, hn⟩ := h
    refine ⟨hshort, (bursts_eq_singleton_iff n hne).mp ?_⟩
    have hpassed := (hn (n + 1) (Nat.le_succ n)).1
    rw [(hfeed n hshort).2] at hpassed
    exact List.append_cancel_left hpassed
  · rintro ⟨hshort, hunbroken⟩
    refine ⟨1, fun k hk => ?_⟩
    obtain ⟨k, rfl⟩ := Nat.exists_eq_add_of_le' hk
    rw [(hfeed k hshort).2, (bursts_eq_singleton_iff k hne).mpr hunbroken]
    exact ⟨rfl, (hfeed k hshort).1⟩

/-- The zeroed port. -/
def init (com : Com) : Line := ⟨⟨com, 0, fun _ => 0, 0⟩, fun _ => ⟨0, 0⟩, []⟩

/-- Three bytes, one call after the first two. -/
theorem delivers_three : (init .usart1).Delivers [[1, 2], [3]] :=
  (delivers_iff (init .usart1) ⟨rfl, rfl⟩ [[1, 2], [3]] (by decide)).mpr ⟨by decide, by
    intro a b hab
    rcases a with _ | ⟨c, _ | ⟨d, a⟩⟩ <;> simp at hab⟩

/-- Fifty bytes between two calls. -/
theorem wholeArray_undelivered : (init .usart1).Idle ∧
    [List.replicate usartReceiveMax (7 : UInt8)].flatten.length = usartReceiveMax ∧
    ¬ (init .usart1).Delivers [List.replicate usartReceiveMax 7] := by
  have hidle : (init .usart1).Idle := ⟨rfl, rfl⟩
  have hlen : [List.replicate usartReceiveMax (7 : UInt8)].flatten.length =
      usartReceiveMax := by simp
  refine ⟨hidle, hlen, fun h => ?_⟩
  have hshort := h.short hidle
  rw [hlen] at hshort
  exact Nat.lt_irrefl _ hshort

end Line

end Stm32F4.Usart.ByteWise
