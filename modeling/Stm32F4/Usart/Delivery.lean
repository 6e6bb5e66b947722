import Stm32F4.Lib.PingPong
import Stm32F4.Usart.Clean

/-! Lossless delivery, in order.

A port is a pair of buffers in the sense of `PingPong`: what `com->func` was given is
out, the user buffer is pending until it is passed, and the stream fills the rest.
Every event without line errors is a list of moves of that pair (`simulates`), and the
only one that can drop something is the exchange in `HAL_UART_RxCpltCallback`, made
over a user buffer that was not processed. A run that avoids it delivers every stored
byte exactly once and in order (`delivery_lossless`). -/
namespace Stm32F4.Usart
open Hal Lib

namespace World

/-- What the user buffer holds and has not been passed on. -/
def userBytes (w : World) : List UInt8 :=
  if w.main = none ∧ w.port.processed = false then
    firstCells (w.port.bytes w.port.buff) w.port.receiveCount
  else []

/-- What the DMA buffer holds. -/
def dmaBytes (w : World) : List UInt8 := firstCells (w.port.bytes w.port.dmaBuff) w.port.counted

/-- The port as a pair of buffers. -/
def pingPong (w : World) : PingPong UInt8 := ⟨w.passed.flatten, w.userBytes, w.dmaBytes⟩

/-- `HAL_UART_RxCpltCallback` does not run while the user buffer holds unprocessed bytes. -/
def NoOverrun (w : World) (e : Event) : Prop :=
  e = .dmaRxIrq → w.port.huart.hdmarx.pending = true →
    w.port.processed = true ∨ w.port.receiveCount = 0

instance (w : World) (e : Event) : Decidable (NoOverrun w e) :=
  inferInstanceAs (Decidable (_ → _ → _ ∨ _))

variable {w w' : World}

/-- The pair is a matter of the user's count, of the buffers and of bit 1. -/
theorem pingPong_congr (hpass : w'.passed = w.passed) (hm : w'.main = w.main)
    (hp : w'.port.processed = w.port.processed) (hr : w'.port.receiveCount = w.port.receiveCount)
    (hb : w'.port.buff = w.port.buff) (hd : w'.port.dmaBuff = w.port.dmaBuff)
    (hf : w'.port.bytes = w.port.bytes) (hc : w'.port.counted = w.port.counted) :
    w'.pingPong = w.pingPong := by
  unfold pingPong userBytes dmaBytes
  rw [hpass, hm, hp, hr, hb, hd, hf, hc]

/-- A step of the port is a list of moves on the pair, none of which drops anything,
that store what the stream stored. -/
def Simulates (w w' : World) : Prop :=
  ∃ ms : List (PingPong.Move UInt8), w'.pingPong = ms.foldl PingPong.apply w.pingPong ∧
    Along PingPong.apply PingPong.Lossless w.pingPong ms ∧
    w'.stored = w.stored ++ ms.flatMap PingPong.Move.stored

theorem Simulates.of_eq (h : w'.pingPong = w.pingPong) (hs : w'.stored = w.stored) :
    Simulates w w' :=
  ⟨[], h, trivial, by simpa using hs⟩

theorem Simulates.move (m : PingPong.Move UInt8) (h : w'.pingPong = w.pingPong.apply m)
    (hm : w.pingPong.Lossless m) (hs : w'.stored = w.stored ++ m.stored) : Simulates w w' :=
  ⟨[m], h, ⟨hm, trivial⟩, by simpa using hs⟩

theorem Simulates.trans {w'' : World} (h : Simulates w w') (h' : Simulates w' w'') :
    Simulates w w'' := by
  obtain ⟨ms, hpair, hlossless, hstored⟩ := h
  obtain ⟨ms', hpair', hlossless', hstored'⟩ := h'
  refine ⟨ms ++ ms', ?_, ?_, ?_⟩
  · rw [List.foldl_append, ← hpair]
    exact hpair'
  · rw [along_append, ← hpair]
    exact ⟨hlossless, hlossless'⟩
  · rw [hstored', hstored, List.flatMap_append, List.append_assoc]

/-- The history of a pair that simulates stays what the stream has stored. -/
theorem Simulates.history (h : Simulates w w') (hw : w.pingPong.history = w.stored) :
    w'.pingPong.history = w'.stored := by
  obtain ⟨ms, hpair, hlossless, hstored⟩ := h
  rw [hpair, PingPong.history_run hlossless, hw, hstored]

/-! ### Exchanging the buffers -/

theorem userBytes_processed (hp : w.port.processed = true) : w.userBytes = [] := by
  unfold userBytes
  rw [if_neg]
  rintro ⟨-, h⟩
  rw [hp] at h
  cases h

theorem userBytes_call (hm : w.main ≠ none) : w.userBytes = [] := if_neg fun h => hm h.1

/-- Handing over `n` bytes, all that the DMA buffer holds, is an exchange of the pair. -/
theorem simulates_exchange (n : Nat) (hn : n = w.port.counted) (u : UartHandle Addr) (s : BitVec 8)
    (hu : u.hdmarx.ndtr = usartReceiveMax) (hs : s.getLsbD 1 = false) (hm : w.main = none)
    (huser : w.userBytes = []) :
    Simulates w { w with port := { w.port.exchange n with huart := u, usartState := s } } := by
  have hcounted : ({ w.port.exchange n with huart := u, usartState := s } : Port).counted = 0 := by
    simp [Port.counted, Port.exchange, Port.ndtr, hu]
  refine .move .exchange ?_ huser (List.append_nil _).symm
  unfold pingPong PingPong.apply dmaBytes
  congr 1
  · show userBytes _ = firstCells (w.port.bytes w.port.dmaBuff) w.port.counted
    unfold userBytes
    rw [if_pos ⟨hm, hs⟩, ← hn]
    rfl
  · show firstCells _ (Port.counted _) = []
    rw [hcounted]
    rfl

theorem simulates_swapped {p : Port} (hm : w.main = none) (hs : Swapped w.port p) :
    Simulates w { w with port := p } := by
  cases hs with
  | kept _ => exact .of_eq rfl rfl
  | swapped u hsw hn =>
    obtain ⟨hp, -, hsize⟩ := (Port.swaps_iff w.port).mp hsw
    refine simulates_exchange _ ?_ u _ hn (Port.getLsbD_exchanged _).2.1 hm (userBytes_processed hp)
    unfold Port.counted
    omega

/-! ### Every event -/

theorem simulates (h : w.Clean) (hr : w.port.refilled = false) {e : Event} (heff : Effect w e w')
    (hok : NoOverrun w e) : Simulates w w' := by
  cases heff with
  | kept e u wire accepted hn =>
    refine .of_eq (pingPong_congr rfl rfl rfl rfl rfl rfl rfl ?_) rfl
    show w.port.dmaReceiveCount + (w.port.dmaReceiveSize - u.hdmarx.ndtr) = w.port.counted
    rw [hn]
    rfl
  | stored b u hroom hn =>
    obtain ⟨m, hm⟩ := h.inv.window
    refine .move (.store b) ?_ trivial rfl
    have hcounted := hm.counted_succ hn
    unfold pingPong PingPong.apply userBytes dmaBytes
    congr 1
    · simp only [Function.update_of_ne hm.distinct]
      rfl
    · show firstCells (Function.update w.port.bytes w.port.dmaBuff _ w.port.dmaBuff)
        (w.port.dmaReceiveCount + (w.port.dmaReceiveSize - u.hdmarx.ndtr)) = _
      rw [hcounted, Function.update_self]
      exact firstCells_update_self _ _ _
  | exchanged sr u hi hp hn =>
    have hm : w.main = none := by simpa using h.inv.idle_of_processed hp
    exact simulates_exchange _ rfl u _ hn (Port.getLsbD_exchanged _).2.1 hm (userBytes_processed hp)
  | appended sr u hi hp hn =>
    obtain ⟨m, hm⟩ := h.inv.window
    have hcounted :
        w.port.counted + (usartReceiveMax - w.port.counted - u.hdmarx.ndtr) = w.port.counted := by
      have := hm.counted_add_ndtr
      rw [hn]
      omega
    obtain ⟨-, f1, -, -⟩ := Port.getLsbD_appended w.port.usartState
    exact .of_eq (pingPong_congr rfl rfl f1 rfl rfl rfl rfl hcounted) rfl
  | filled u hpend hfull hn =>
    obtain ⟨m, hm⟩ := h.inv.window
    have hcounted : usartReceiveMax = w.port.counted := by
      have := hm.counted_add_ndtr
      omega
    have hmain : w.main = none := by
      by_contra hcall
      have hflags := h.inv.flags.call (by simpa [Option.isSome_iff_ne_none] using hcall)
      rcases hok rfl hpend with hp | hzero
      · exact absurd (hp.symm.trans hflags.2.1) (by decide)
      · exact absurd hzero (Nat.pos_iff_ne_zero.mp hflags.2.2)
    have huser : w.userBytes = [] := by
      rcases hok rfl hpend with hp | hzero
      · exact userBytes_processed hp
      · unfold userBytes
        rw [hzero]
        split <;> rfl
    exact simulates_exchange _ hcounted u _ hn (Port.getLsbD_filled _ _).2.1 hmain huser
  | entered p hm hs hrc =>
    have hswap := simulates_swapped hm hs
    have hflags : Flags p.usartState p.receiveCount false := by
      have hf := h.inv.flags
      rw [hm] at hf
      cases hs with
      | kept _ => exact hf
      | swapped u _ _ => exact hf.exchanged _
    have hproc : p.processed = false := by
      cases hp : p.processed
      · rfl
      · exact absurd (hflags.processed hp) hrc
    refine hswap.trans (.move .take ?_ trivial (List.append_nil _).symm)
    unfold pingPong PingPong.apply userBytes
    simp [hm, hproc, dmaBytes, Port.manageBusy, Port.counted, Port.ndtr]
  | passedOver p hm hs hrc => exact simulates_swapped hm hs
  | left c hm =>
    refine .of_eq ?_ rfl
    have heq := Port.manageFinish_eq w.port
    rw [if_neg (by simp [hr])] at heq
    obtain ⟨-, f1, -, -⟩ := Port.getLsbD_finished w.port.usartState
    rw [heq]
    unfold pingPong
    rw [userBytes_call (w := w) (by simp [hm]), userBytes_processed (by exact f1)]
    rfl

/-! ### Every run -/

/-- What a run that avoids overruns keeps. -/
structure Delivering (w : World) : Prop where
  clean : w.Clean
  refilled : w.port.refilled = false
  history : w.pingPong.history = w.stored

theorem delivering_init (com : Com) : (init com).Delivering :=
  ⟨clean_init com, by cases com <;> decide, by cases com <;> decide⟩

/-- Bit 2 is set by a full window during a call, which would be an overrun. -/
theorem refilled_effect (h : w.Clean) (hr : w.port.refilled = false) {e : Event}
    (heff : Effect w e w')
    (hok : NoOverrun w e) : w'.port.refilled = false := by
  unfold Port.refilled at *
  cases heff with
  | kept | stored => exact hr
  | exchanged => exact (Port.getLsbD_exchanged _).2.2.1.trans hr
  | appended => exact (Port.getLsbD_appended _).2.2.1.trans hr
  | filled u hpend hfull hn =>
    have hidle : w.port.usartState.getLsbD 0 = false := by
      cases hb : w.main.isSome
      · exact (h.inv.flags.idle hb).1
      · have hflags := h.inv.flags.call hb
        rcases hok rfl hpend with hp | hzero
        · exact absurd (hp.symm.trans hflags.2.1) (by decide)
        · exact absurd hzero (Nat.pos_iff_ne_zero.mp hflags.2.2)
    refine (Port.getLsbD_filled _ _).2.2.1.trans ?_
    rw [hr]
    exact hidle
  | entered p hm hs hrc =>
    refine (Port.getLsbD_busy _).2.2.1.trans ?_
    cases hs with
    | kept _ => exact hr
    | swapped u _ _ => exact (Port.getLsbD_exchanged _).2.2.1.trans hr
  | passedOver p hm hs hrc =>
    cases hs with
    | kept _ => exact hr
    | swapped u _ _ => exact (Port.getLsbD_exchanged _).2.2.1.trans hr
  | left c hm =>
    have heq := Port.manageFinish_eq w.port
    rw [show w.port.refilled = false from hr, if_neg (by decide)] at heq
    rw [heq]
    exact (Port.getLsbD_finished _).2.2.1.trans hr

theorem delivering_step (w : World) (e : Event) (h : w.Delivering)
    (he : e.clean = true ∧ NoOverrun w e) : (w.step e).Delivering := by
  have heff := effect h.clean.inv h.clean.sound he.1
  exact ⟨clean_step w e h.clean he.1, refilled_effect h.clean h.refilled heff he.2,
    (simulates h.clean h.refilled heff he.2).history h.history⟩

/-- **Lossless delivery.** In a run that never fills the DMA buffer up over unprocessed
bytes, what the stream has stored is what was passed on, then the user buffer while it
is waiting to be passed, then the DMA buffer. -/
theorem delivery_lossless (com : Com) (es : List Event) (hclean : ∀ e ∈ es, e.clean = true)
    (hok : Along step NoOverrun (init com) es) :
    let w := run com es
    w.stored = w.passed.flatten ++
      (if w.main = none ∧ w.port.processed = false then
        firstCells (w.port.bytes w.port.buff) w.port.receiveCount else []) ++
      firstCells (w.port.bytes w.port.dmaBuff)
        (w.port.dmaReceiveCount + (w.port.dmaReceiveSize - w.port.ndtr)) := by
  have hrun : (run com es).Delivering :=
    Along.invariant delivering_step
      ((along_of_forall (p := fun e : Event => e.clean = true) _ hclean).and hok)
        (delivering_init com)
  exact hrun.history.symm

/-- Two bytes passed on, one behind them. -/
theorem delivery_lossless_frame :
    let w := run .usart1
      [.rxByte 1, .rxByte 2, .usartIrq { idle := true }, .enter, .leave, .rxByte 3]
    w.stored = w.passed.flatten ++
      (if w.main = none ∧ w.port.processed = false then
        firstCells (w.port.bytes w.port.buff) w.port.receiveCount else []) ++
      firstCells (w.port.bytes w.port.dmaBuff)
        (w.port.dmaReceiveCount + (w.port.dmaReceiveSize - w.port.ndtr)) :=
  delivery_lossless .usart1 _ (by decide) (by decide)

end World

end Stm32F4.Usart
