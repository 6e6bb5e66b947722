import Stm32F4.Usart.Transmit

/-! The echo of the main program.

Every port's callback passes its array by reference to `com_send_str(&usart1, ..)`, which
returns while the transmit stream of `usart1` is still to read it. The callback's return marks
the user buffer as processed, so the next exchange on that port puts the array back under
the receiver, and what is received then goes out in place of the frame. A frame is safe as
long as no byte is received on its port while the receive stream is on its array
(`echo_run`).

The six ports run next to each other. The main loop is in one call of `receive_str_manage` at
a time, and all that this does before it calls `func` is one step: an interrupt in the middle of
its exchange is left to `Usart/Statements.lean`. The stream of `usart1` reads an address at the
time it fetches from it. -/
namespace Stm32F4.Usart
open Hal Lib

/-! ### The callbacks -/

/-- `com_send_str(&usart1, str, len)`, one pass of its loop. -/
def callBack (waited : BitVec 32) (str : Addr) (len : Nat) (usart1 : World) :
    Option HalStatus × World :=
  ((usart1.port.comSendStr waited (some str) len).1, usart1.sendStr waited (some str) len)

def usart1CallBack := callBack
def usart2CallBack := callBack
def usart3CallBack := callBack

/-- What `usart_init` installs. -/
def func : Com → BitVec 32 → Addr → Nat → World → Option HalStatus × World
  | .usart1 => usart1CallBack
  | .usart2 => usart2CallBack
  | .usart3 => usart3CallBack
  | .usart4 => usart1CallBack
  | .usart5 => usart2CallBack
  | .usart6 => usart3CallBack

/-- They are all the same. -/
theorem func_eq (com : Com) : func com = callBack := by
  cases com <;> rfl

/-! ### Six ports and a main loop -/

/-- A message `usart1` has accepted: what the callback was given, and what has gone out of it. -/
structure Frame where
  given : List UInt8
  sent : List UInt8
deriving DecidableEq, Repr

/-- All of it has gone out. -/
def Frame.Complete (f : Frame) : Prop := f.sent.length = f.given.length

/-- Where the main loop is. -/
inductive EchoPc where
  | out
  /-- in the callback of a port, which was given these bytes -/
  | callback (com : Com) (call : Call) (given : List UInt8)
  /-- the callback has returned -/
  | returned (com : Com)
deriving DecidableEq, Repr

structure Echo where
  ports : Com → World
  pc : EchoPc
  /-- the newest first -/
  frames : List Frame

inductive EchoEvent where
  | rxByte (com : Com) (b : UInt8)
  | usartIrq (com : Com) (sr : Sr)
  | dmaRxIrq (com : Com)
  /-- the transmit stream of `usart1` -/
  | dmaTxIrq
  | txByte
  /-- the main loop calls `receive_str_manage` for a port -/
  | enter (com : Com)
  /-- a pass of the loop in `com_send_str`, so many ticks after the call -/
  | callback (waited : BitVec 32)
  | leave
deriving DecidableEq, Repr

namespace Echo

/-- Something happens to one port. -/
def atPort (com : Com) (f : World → World) (s : Echo) : Echo :=
  { s with ports := Function.update s.ports com (f (s.ports com)) }

/-- The memory; no callback sends from outside the receive arrays. -/
def read (s : Echo) (a : Addr) : UInt8 :=
  match a.region with
  | .buff com b => (s.ports com).port.bytes b a.off
  | .user _ => 0

/-- `receive_str_manage` up to the call of `com->func`. -/
def enter (com : Com) (s : Echo) : Echo :=
  match s.pc with
  | .out =>
    let s := s.atPort com World.enter
    match (s.ports com).main with
    | some call =>
      { s with
        pc := .callback com call (firstCells ((s.ports com).port.bytes call.buf) call.count) }
    | none => s
  | _ => s

/-- The callback goes on. -/
def callback (waited : BitVec 32) (s : Echo) : Echo :=
  match s.pc with
  | .callback com call given =>
    let r := func com waited ((s.ports com).port.addr call.buf 0) call.count (s.ports .usart1)
    match r.1 with
    | none => s
    | some status =>
      { ports := Function.update s.ports .usart1 r.2
        pc := .returned com
        frames := if status = .ok then ⟨given, []⟩ :: s.frames else s.frames }
  | _ => s

def leave (s : Echo) : Echo :=
  match s.pc with
  | .returned com => { s.atPort com World.leave with pc := .out }
  | _ => s

/-- The stream of `usart1` fetches a byte. -/
def txByte (s : Echo) : Echo :=
  match (s.ports .usart1).port.txDmaRead with
  | some (a, _) =>
    { s.atPort .usart1 World.txByte with
      frames := match s.frames with
        | f :: rest => { f with sent := f.sent ++ [s.read a] } :: rest
        | [] => [] }
  | none => s

def step (s : Echo) : EchoEvent → Echo
  | .rxByte com b => s.atPort com (World.rxByte b)
  | .usartIrq com sr => s.atPort com (World.usartIrq sr)
  | .dmaRxIrq com => s.atPort com World.dmaRxIrq
  | .dmaTxIrq => s.atPort .usart1 World.dmaTxIrq
  | .txByte => s.txByte
  | .enter com => s.enter com
  | .callback waited => s.callback waited
  | .leave => s.leave

/-- After `usart_init`. -/
def init : Echo where
  ports := World.init
  pc := .out
  frames := []

def run (es : List EchoEvent) : Echo := es.foldl step init

/-! ### The property -/

/-- The transmit stream of `usart1`. -/
def stream (s : Echo) : DmaHandle Addr := (s.ports .usart1).port.huart.hdmatx

/-- No byte is stored into the source range of a transmission in flight. -/
def NoHit (s : Echo) : EchoEvent → Prop
  | .rxByte com _ => (s.ports com).port.armed = true → s.stream.en = true →
    (s.ports com).port.rxTarget ∉ message (some s.stream.m0ar) s.stream.len
  | _ => True

instance (s : Echo) : (e : EchoEvent) → Decidable (NoHit s e)
  | .rxByte .. => inferInstanceAs (Decidable (_ → _ → _))
  | .usartIrq .. | .dmaRxIrq _ | .dmaTxIrq | .txByte | .enter _ | .callback _ | .leave =>
    inferInstanceAs (Decidable True)

/-- Every frame that has gone out completely is what the callback was given. -/
def Intact (s : Echo) : Prop := ∀ f ∈ s.frames, f.Complete → f.sent = f.given

/-- The array is a callback's, still to be sent. -/
def calledOn (pc : EchoPc) (com : Com) (b : Buf) : Prop :=
  match pc with
  | .callback com' call _ => com' = com ∧ call.buf = b
  | _ => False

instance (com : Com) (b : Buf) : (pc : EchoPc) → Decidable (calledOn pc com b)
  | .callback .. => inferInstanceAs (Decidable (_ ∧ _))
  | .out | .returned _ => inferInstanceAs (Decidable False)

/-- A byte is stored only if the receive stream is neither on the array that `usart1` is sending
nor on the one a callback is about to send. -/
def Unshared (s : Echo) : EchoEvent → Prop
  | .rxByte com _ => (s.ports com).port.armed = true →
    (s.stream.en = true → s.stream.m0ar.region ≠ .buff com (s.ports com).port.dmaBuff) ∧
      ¬ calledOn s.pc com (s.ports com).port.dmaBuff
  | _ => True

instance (s : Echo) : (e : EchoEvent) → Decidable (Unshared s e)
  | .rxByte .. => inferInstanceAs (Decidable (_ → _ ∧ _))
  | .usartIrq .. | .dmaRxIrq _ | .dmaTxIrq | .txByte | .enter _ | .callback _ | .leave =>
    inferInstanceAs (Decidable True)

end Echo

/-! ### One port -/

/-- A stream stays within its array. -/
theorem toFetch_region {h : DmaHandle Addr} {a : Addr} (ha : a ∈ toFetch h) :
    a.region = h.m0ar.region := by
  unfold toFetch at ha
  split at ha
  · obtain ⟨i, -, rfl⟩ := List.mem_map.mp ha
    rfl
  · cases ha

namespace World
variable {w : World}

/-- Only a received byte changes the arrays. -/
theorem step_memory (h : w.Inv) {e : Event} (he : ∀ b, e ≠ .rxByte b) :
    (w.step e).port.com = w.port.com ∧ (w.step e).port.bytes = w.port.bytes := by
  obtain ⟨m, hm⟩ := h.window
  obtain ⟨t, ht⟩ := h.tx
  cases e with
  | rxByte b => exact absurd rfl (he b)
  | usartIrq sr =>
    show (w.port.usartIrqHandler sr).com = _ ∧ (w.port.usartIrqHandler sr).bytes = _
    obtain ⟨u, ⟨-, heq⟩ | ⟨-, -, heq⟩ | ⟨-, -, heq⟩⟩ := Port.usartIrqHandler_cases hm sr
    all_goals
      rw [heq]
      exact ⟨rfl, rfl⟩
  | dmaRxIrq =>
    show w.dmaRxIrq.port.com = _ ∧ w.dmaRxIrq.port.bytes = _
    by_cases hp : w.port.huart.hdmarx.pending = true
    · rw [dmaRxIrq_of_pending hp]
      rcases hm.pending_cases hp with rfl | hab
      · rw [Port.dmaRxIrqHandler_complete hm]
        exact ⟨rfl, rfl⟩
      · rw [(Port.dmaRxIrqHandler_aborting hm hab).1]
        exact ⟨rfl, rfl⟩
    · rw [dmaRxIrq_of_not hp]
      exact ⟨rfl, rfl⟩
  | dmaTxIrq =>
    show w.dmaTxIrq.port.com = _ ∧ w.dmaTxIrq.port.bytes = _
    rcases dmaTxIrq_cases ht with heq | ⟨-, heq⟩
    all_goals
      rw [heq]
      exact ⟨rfl, rfl⟩
  | txByte =>
    show w.txByte.port.com = _ ∧ w.txByte.port.bytes = _
    rcases txByte_cases ht with ⟨-, heq⟩ | ⟨-, heq⟩
    all_goals
      rw [heq]
      exact ⟨rfl, rfl⟩
  | sendStr waited str len =>
    show (w.port.comSendStr waited str len).2.com = _ ∧
      (w.port.comSendStr waited str len).2.bytes = _
    rw [Port.comSendStr_port]
    exact ⟨rfl, rfl⟩
  | enter =>
    have hswap : w.port.manageSwap.com = w.port.com ∧ w.port.manageSwap.bytes = w.port.bytes := by
      obtain ⟨u, ⟨-, heq⟩ | ⟨-, heq⟩⟩ := Port.manageSwap_cases w.port
      all_goals
        rw [heq]
        exact ⟨rfl, rfl⟩
    show w.enter.port.com = _ ∧ w.enter.port.bytes = _
    cases hmain : w.main with
    | some c =>
      rw [enter_of_main hmain]
      exact ⟨rfl, rfl⟩
    | none =>
      by_cases hr : w.port.manageSwap.receiveCount = 0
      · rw [enter_of_empty hmain hr]
        exact hswap
      · rw [enter_of_filled hmain hr]
        exact hswap
  | leave =>
    show w.leave.port.com = _ ∧ w.leave.port.bytes = _
    cases hmain : w.main with
    | some c =>
      rw [leave_of_main hmain, Port.manageFinish_eq]
      split <;> exact ⟨rfl, rfl⟩
    | none =>
      rw [leave_of_none hmain]
      exact ⟨rfl, rfl⟩

/-- The receive side's events leave the transmit stream alone, or stopped. -/
theorem step_hdmatx (h : w.Inv) {e : Event} (he : e ≠ .txByte)
    (hs : ∀ waited str len, e ≠ .sendStr waited str len)
    (hen : (w.step e).port.huart.hdmatx.en = true) :
    (w.step e).port.huart.hdmatx = w.port.huart.hdmatx := by
  cases e with
  | rxByte b => exact (rxByte_line b w).1
  | usartIrq sr =>
    cases hi : sr.idle
    · exact usartIrq_hdmatx h hi
    · obtain ⟨t', ht', hne⟩ := usartIrq_inTxMode h hi
      exact absurd ((ht'.en_eq_false hne).symm.trans hen) (by decide)
  | dmaRxIrq => exact dmaRxIrq_hdmatx h
  | dmaTxIrq =>
    obtain ⟨t, ht⟩ := h.tx
    change w.dmaTxIrq.port.huart.hdmatx.en = true at hen
    show w.dmaTxIrq.port.huart.hdmatx = _
    rcases dmaTxIrq_cases ht with heq | ⟨rfl, heq⟩
    · rw [heq]
    · rw [heq] at hen
      exact absurd (hen.symm.trans ht.en) (by decide)
  | txByte => exact absurd rfl he
  | sendStr waited str len => exact absurd rfl (hs waited str len)
  | enter =>
    by_cases hswap : w.main = none ∧ w.port.swaps = true
    · obtain ⟨t', ht', hne⟩ := enter_inTxMode h hswap.1 hswap.2
      exact absurd ((ht'.en_eq_false hne).symm.trans hen) (by decide)
    · exact congrArg UartHandle.hdmatx (enter_kept hswap)
  | leave => exact congrArg UartHandle.hdmatx (leave_line w).1

end World

namespace Echo
variable {s s' : Echo}

/-! ### The invariant -/

structure Inv (s : Echo) : Prop where
  ports : ∀ com, (s.ports com).Inv
  com : ∀ com, (s.ports com).port.com = com
  sent : ∀ f ∈ s.frames, f.sent <+: f.given
  given : ∀ com call given, s.pc = .callback com call given →
    given = firstCells ((s.ports com).port.bytes call.buf) call.count
  /-- what is left to fetch of the frame in flight is still in memory -/
  flight : s.stream.en = true → s.stream.ndtr ≤ s.stream.len ∧
    ∃ f rest, s.frames = f :: rest ∧ f.sent ++ (toFetch s.stream).map s.read = f.given

/-- What holds of every port still does if it holds of the one that has changed. -/
theorem forall_atPort {P : Com → World → Prop} (h : ∀ com, P com (s.ports com))
    {com : Com} {w : World}
    (hw : P com w) (com' : Com) : P com' (Function.update s.ports com w com') := by
  by_cases hc : com' = com
  · subst hc
    rw [Function.update_self]
    exact hw
  · rw [Function.update_of_ne hc]
    exact h com'

/-- The stream after something has happened to one port. -/
theorem stream_atPort {com : Com} {w : World} (h : com = .usart1 → w.port.huart.hdmatx = s.stream) :
    (Function.update s.ports com w .usart1).port.huart.hdmatx = s.stream := by
  by_cases hc : com = .usart1
  · subst hc
    rw [Function.update_self]
    exact h rfl
  · rw [Function.update_of_ne (Ne.symm hc)]
    rfl

/-- What the memory holds is a matter of the arrays. -/
theorem read_congr (h : ∀ com, (s'.ports com).port.bytes = (s.ports com).port.bytes) :
    s'.read = s.read := by
  funext a
  unfold read
  cases a.region with
  | buff com b => simp only [h com]
  | user id => rfl

/-- A step that stores nothing and starts no transmission. -/
theorem Inv.of_memory (h : s.Inv) (hports : ∀ com, (s'.ports com).Inv)
    (hmemory : ∀ com, (s'.ports com).port.com = (s.ports com).port.com ∧
      (s'.ports com).port.bytes = (s.ports com).port.bytes)
    (hframes : s'.frames = s.frames)
    (hpc : ∀ com call given, s'.pc = .callback com call given →
      given = firstCells ((s.ports com).port.bytes call.buf) call.count)
    (hstream : s'.stream.en = true → s'.stream = s.stream) : s'.Inv := by
  refine ⟨hports, fun com => (hmemory com).1.trans (h.com com), ?_, fun com call given heq => ?_,
    fun hen => ?_⟩
  · rw [hframes]
    exact h.sent
  · rw [(hmemory com).2]
    exact hpc com call given heq
  · have hsame := hstream hen
    rw [hsame] at hen
    rw [hsame, hframes, read_congr fun com => (hmemory com).2]
    exact h.flight hen

/-- A step that stores nothing and starts a transmission of what it has in memory. -/
theorem Inv.accept (h : s.Inv) (hports : ∀ com, (s'.ports com).Inv)
    (hmemory : ∀ com, (s'.ports com).port.com = (s.ports com).port.com ∧
      (s'.ports com).port.bytes = (s.ports com).port.bytes)
    {given : List UInt8} (hframes : s'.frames = ⟨given, []⟩ :: s.frames)
    (hpc : ∀ com call given, s'.pc ≠ .callback com call given)
    (hwithin : s'.stream.ndtr ≤ s'.stream.len) (hfetch : (toFetch s'.stream).map s.read = given) :
    s'.Inv := by
  refine ⟨hports, fun com => (hmemory com).1.trans (h.com com), fun f hf => ?_,
    fun com call given heq => absurd heq (hpc com call given),
      fun _ => ⟨hwithin, _, _, hframes, ?_⟩⟩
  · rw [hframes] at hf
    rcases List.mem_cons.mp hf with rfl | hold
    · exact List.nil_prefix
    · exact h.sent f hold
  · rw [read_congr fun com => (hmemory com).2]
    exact hfetch

/-- Something on one port that stores nothing and starts no transmission. -/
theorem Inv.atPort (h : s.Inv) (com : Com) {e : Event} {f : World → World}
    (hf : f (s.ports com) = (s.ports com).step e) (hb : ∀ b, e ≠ .rxByte b) (he : e ≠ .txByte)
    (hs : ∀ waited str len, e ≠ .sendStr waited str len) : (s.atPort com f).Inv := by
  have hstep := World.inv_step (s.ports com) e (h.ports com)
  have hmemory := World.step_memory (h.ports com) hb
  have hstream := World.step_hdmatx (h.ports com) he hs
  rw [← hf] at hstep hmemory hstream
  refine h.of_memory (forall_atPort (P := fun _ w => w.Inv) h.ports hstep)
    (forall_atPort (P := fun com w => w.port.com = (s.ports com).port.com ∧
      w.port.bytes = (s.ports com).port.bytes) (fun _ => ⟨rfl, rfl⟩) hmemory) rfl h.given
      fun hen => ?_
  refine stream_atPort fun hc => ?_
  subst hc
  simp only [stream, Echo.atPort, Function.update_self] at hen
  exact hstream hen

/-! ### The steps -/

/-- A byte goes to an array that nobody is reading. -/
theorem inv_rxByte (h : s.Inv) {com : Com} {b : UInt8} (hok : Unshared s (.rxByte com b)) :
    (s.atPort com (World.rxByte b)).Inv := by
  obtain ⟨m, hm⟩ := (h.ports com).window
  have hstep := World.inv_rxByte (h.ports com) b
  change ((s.ports com).rxByte b).Inv at hstep
  rcases World.rxByte_cases hm b with ⟨-, hnone⟩ | ⟨rfl, hrx⟩
  · have hsame : s.atPort com (World.rxByte b) = s := by
      unfold Echo.atPort
      rw [hnone, Function.update_eq_self]
    rw [hsame]
    exact h
  · obtain ⟨hflight, hcalled⟩ := hok (hm.armed_iff.mpr rfl)
    -- every array but the one under the receiver is as before
    have hbytes : ∀ com' b', ¬ (com' = com ∧ b' = (s.ports com).port.dmaBuff) →
        ((s.atPort com (World.rxByte b)).ports com').port.bytes b' =
          (s.ports com').port.bytes b' := by
      refine forall_atPort (P := fun com' w => ∀ b',
        ¬ (com' = com ∧ b' = (s.ports com).port.dmaBuff) →
        w.port.bytes b' = (s.ports com').port.bytes b') (fun _ _ _ => rfl) fun b' hne => ?_
      rw [hrx]
      exact Function.update_of_ne (fun hb => hne ⟨rfl, hb⟩) _ _
    have hstream : (s.atPort com (World.rxByte b)).stream = s.stream := by
      refine stream_atPort fun hc => ?_
      subst hc
      rw [hrx]
      rfl
    refine ⟨forall_atPort (P := fun _ w => w.Inv) h.ports hstep,
      forall_atPort (P := fun com w => w.port.com = com) h.com (by rw [hrx]; exact h.com com),
        h.sent,
      fun com' call given heq => ?_, fun hen => ?_⟩
    · have hpc : s.pc = .callback com' call given := heq
      rw [hbytes com' call.buf]
      · exact h.given com' call given hpc
      · rintro ⟨rfl, hb⟩
        refine hcalled ?_
        rw [hpc]
        exact ⟨rfl, hb⟩
    · rw [hstream] at hen ⊢
      obtain ⟨hwithin, f, rest, hframes, hrest⟩ := h.flight hen
      refine ⟨hwithin, f, rest, hframes, ?_⟩
      rw [← hrest]
      congr 1
      refine List.map_congr_left fun a ha => ?_
      have hregion := toFetch_region ha
      unfold read
      cases hr : a.region with
      | user id => rfl
      | buff com' b' =>
        simp only
        rw [hbytes com' b']
        rintro ⟨rfl, rfl⟩
        exact hflight hen (hregion.symm.trans hr)

/-- A byte of the frame in flight goes out. -/
theorem inv_txByte (h : s.Inv) : s.txByte.Inv := by
  obtain ⟨t, ht⟩ := (h.ports .usart1).tx
  by_cases hs : t = .sending
  · subst hs
    have hen : s.stream.en = true := ht.en
    have hroom : 0 < s.stream.ndtr := ht.room rfl
    obtain ⟨hwithin, f, rest, hframes, hrest⟩ := h.flight hen
    have hnext := toFetch_transfer hen hroom hwithin
    have hstep := World.inv_txByte (h.ports .usart1)
    have hmemory := World.step_memory (h.ports .usart1) (e := .txByte) (fun b hb => by cases hb)
    change (s.ports .usart1).txByte.Inv at hstep
    change (s.ports .usart1).txByte.port.com = _ ∧
      (s.ports .usart1).txByte.port.bytes = _ at hmemory
    have hafter : (s.ports .usart1).txByte.port.huart.hdmatx = s.stream.transfer := by
      unfold World.txByte
      rw [Port.txDmaRead_sending ht]
      rfl
    have htx : s.txByte = { s.atPort .usart1 World.txByte with
        frames :=
          { f with sent := f.sent ++ [s.read (s.stream.m0ar.add s.stream.pos)] } :: rest } := by
      unfold txByte
      rw [Port.txDmaRead_sending ht, hframes]
      rfl
    have hbytes : ∀ com, (s.txByte.ports com).port.bytes = (s.ports com).port.bytes := by
      rw [htx]
      exact forall_atPort (P := fun com w => w.port.bytes = (s.ports com).port.bytes)
        (fun _ => rfl) hmemory.2
    have hstream : s.txByte.stream = s.stream.transfer := by
      rw [htx]
      exact hafter
    rw [hnext, List.map_cons] at hrest
    refine ⟨?_, ?_, ?_, fun com call given heq => ?_, fun _ => ?_⟩
    · rw [htx]
      exact forall_atPort (P := fun _ w => w.Inv) h.ports hstep
    · rw [htx]
      exact forall_atPort (P := fun com w => w.port.com = com) h.com (hmemory.1.trans (h.com _))
    · rw [htx]
      intro f' hf'
      rcases List.mem_cons.mp hf' with rfl | hold
      · exact ⟨(toFetch s.stream.transfer).map s.read, by simpa using hrest⟩
      · exact h.sent f' (by rw [hframes]; exact List.mem_cons_of_mem _ hold)
    · rw [hbytes com]
      refine h.given com call given ?_
      rw [htx] at heq
      exact heq
    · rw [hstream, read_congr hbytes, htx]
      exact ⟨Nat.le_trans (Nat.sub_le _ _) hwithin, _, rest, rfl, by simpa using hrest⟩
  · have hsame : s.txByte = s := by
      unfold txByte
      rw [Port.txDmaRead_of_ne ht hs]
    rw [hsame]
    exact h

/-- The addresses of a frame, read back. -/
theorem map_read_message (com : Com) (call : Call) :
    (message (some ⟨.buff com call.buf, 0⟩) call.count).map s.read =
      firstCells ((s.ports com).port.bytes call.buf) call.count := by
  unfold message firstCells
  rw [List.map_map]
  refine List.map_congr_left fun i _ => ?_
  show (s.ports com).port.bytes call.buf (0 + i) = _
  rw [Nat.zero_add]

theorem inv_callback (h : s.Inv) (waited : BitVec 32) : (s.callback waited).Inv := by
  unfold callback
  split
  · next com call given hpc =>
    have hgiven := h.given com call given hpc
    rw [func_eq, show (s.ports com).port.addr call.buf 0 = ⟨.buff com call.buf, 0⟩ by
      unfold Port.addr
      rw [h.com com]]
    have hstep :=
      World.inv_sendStr (h.ports .usart1) waited (some ⟨.buff com call.buf, 0⟩) call.count
    have hmemory := World.step_memory (h.ports .usart1)
      (e := .sendStr waited (some ⟨.buff com call.buf, 0⟩) call.count) (fun b hb => by cases hb)
    have hsend :=
      World.sendStr_stream (h.ports .usart1) waited (some ⟨.buff com call.buf, 0⟩) call.count
    change ((s.ports .usart1).sendStr _ _ _).Inv at hstep
    change ((s.ports .usart1).sendStr _ _ _).port.com = _ ∧
      ((s.ports .usart1).sendStr _ _ _).port.bytes = _ at hmemory
    simp only [callBack]
    split
    · exact h
    · next status hstatus =>
      have hports : ∀ com', (Function.update s.ports .usart1 _ com').Inv :=
        forall_atPort (P := fun _ w => w.Inv) h.ports hstep
      have hmem :
          ∀ com', (Function.update s.ports .usart1 _ com').port.com = (s.ports com').port.com ∧
          (Function.update s.ports .usart1 _ com').port.bytes = (s.ports com').port.bytes :=
        forall_atPort (P := fun com w => w.port.com = (s.ports com).port.com ∧
          w.port.bytes = (s.ports com).port.bytes) (fun _ => ⟨rfl, rfl⟩) hmemory
      rcases hsend with ⟨hne, hsame⟩ | ⟨hok, -, hfetch, hwithin⟩
      · rw [hstatus] at hne
        rw [if_neg (fun hs => hne (congrArg some hs))]
        exact h.of_memory hports hmem rfl (fun com call given heq => by cases heq)
          fun _ => stream_atPort fun _ => hsame
      · obtain rfl : status = .ok := Option.some.inj (hstatus.symm.trans hok)
        rw [if_pos rfl]
        have hstream : (Function.update s.ports .usart1 ((s.ports .usart1).sendStr waited
              (some ⟨.buff com call.buf, 0⟩) call.count) .usart1).port.huart.hdmatx =
            ((s.ports .usart1).port.comSendStr waited (some ⟨.buff com call.buf, 0⟩)
              call.count).2.huart.hdmatx := by
          rw [Function.update_self]
          rfl
        refine h.accept hports hmem rfl nofun ?_ ?_
        · unfold stream
          rw [hstream]
          exact hwithin
        · unfold stream
          rw [hstream, hfetch, map_read_message, hgiven]
  · exact h

theorem inv_enter (h : s.Inv) (com : Com) : (s.enter com).Inv := by
  unfold enter
  split
  · have hat :=
      h.atPort com (e := .enter) (f := World.enter) rfl (fun b hb => by cases hb) (by decide)
      (fun waited str len hs => by cases hs)
    simp only
    split
    · next call hc =>
      exact hat.of_memory hat.ports (fun _ => ⟨rfl, rfl⟩) rfl
        (fun com' call' given heq => by cases heq; rfl)
        fun _ => rfl
    · exact hat
  · exact h

theorem inv_leave (h : s.Inv) : s.leave.Inv := by
  unfold leave
  split
  · next com hpc =>
    have hat :=
      h.atPort com (e := .leave) (f := World.leave) rfl (fun b hb => by cases hb) (by decide)
      (fun waited str len hs => by cases hs)
    exact hat.of_memory hat.ports (fun _ => ⟨rfl, rfl⟩) rfl
      (fun com' call' given heq => by cases heq)
      fun _ => rfl
  · exact h

theorem inv_step (s : Echo) (e : EchoEvent) (h : s.Inv) (hok : Unshared s e) : (s.step e).Inv := by
  cases e with
  | rxByte com b => exact inv_rxByte h hok
  | usartIrq com sr =>
    exact h.atPort com (e := .usartIrq sr) rfl (fun b hb => by cases hb) (fun ht => by cases ht)
      (fun waited str len hs => by cases hs)
  | dmaRxIrq com =>
    exact h.atPort com (e := .dmaRxIrq) rfl (fun b hb => by cases hb) (by decide)
      (fun waited str len hs => by cases hs)
  | dmaTxIrq =>
    exact h.atPort .usart1 (e := .dmaTxIrq) rfl (fun b hb => by cases hb) (by decide)
      (fun waited str len hs => by cases hs)
  | txByte => exact inv_txByte h
  | enter com => exact inv_enter h com
  | callback waited => exact inv_callback h waited
  | leave => exact inv_leave h

theorem inv_init : init.Inv := by
  refine ⟨World.inv_init, fun com => ?_, fun f hf => ?_, fun com call given heq => ?_,
    fun hen => ?_⟩
  · cases com <;> rfl
  · cases hf
  · cases heq
  · cases hen

/-! ### Every run -/

/-- The receive stream stores into the array it is on, and a transmission is read from one array. -/
theorem noHit_of_unshared (h : s.Inv) {e : EchoEvent} (hok : Unshared s e) : NoHit s e := by
  cases e with
  | rxByte com b =>
    intro harmed hen hmem
    obtain ⟨m, hm⟩ := (h.ports com).window
    have hrun := hm.armed_iff.mp harmed
    obtain ⟨i, -, haddr⟩ := List.mem_map.mp hmem
    have hregion : (s.stream.m0ar.add i).region = (s.ports com).port.rxTarget.region :=
      congrArg Addr.region haddr
    refine (hok harmed).1 hen (hregion.trans ?_)
    unfold Port.rxTarget
    rw [(hm.target (.inl hrun)).1]
    show Region.buff (s.ports com).port.com _ = _
    rw [h.com com]
  | _ => trivial

/-- **Echo integrity.** In a run where no byte is received on a port while its receive stream is on
the array of a frame being sent, or about to be, no byte is stored into a transmission in
flight, and every frame that goes out completely is what the callback was given. -/
theorem echo_run (es : List EchoEvent) (h : Along step Unshared init es) :
    Along step NoHit init es ∧ ∀ n, (run (es.take n)).Intact := by
  refine ⟨h.imp inv_step (fun s e hs hok => noHit_of_unshared hs hok) inv_init, fun n f hf hc => ?_⟩
  have hinv : (run (es.take n)).Inv := (h.take n).invariant inv_step inv_init
  exact (hinv.sent f hf).eq_of_length hc

/-- Two bytes on `usart2`, echoed while a third arrives on its other array. -/
def safeEcho : List EchoEvent :=
  [.rxByte .usart2 1, .rxByte .usart2 2, .usartIrq .usart2 { idle := true }, .enter .usart2,
    .callback 0, .leave,
    .rxByte .usart2 3, .txByte, .txByte]

theorem safeEcho_intact : Along step NoHit init safeEcho ∧ (run (safeEcho.take 9)).Intact :=
  ⟨(echo_run safeEcho (by decide +kernel)).1, (echo_run safeEcho (by decide +kernel)).2 9⟩

/-- The same two bytes, but the line of `usart2` goes idle after the third, and a fourth arrives
before the frame is sent. -/
def lateEcho : List EchoEvent :=
  [.rxByte .usart2 1, .rxByte .usart2 2, .usartIrq .usart2 { idle := true }, .enter .usart2,
    .callback 0, .leave,
    .rxByte .usart2 3, .usartIrq .usart2 { idle := true }, .rxByte .usart2 4, .txByte, .txByte]

/-- It goes out in place of the first. -/
theorem lateEcho_overwritten : ¬ Along step NoHit init lateEcho ∧
    (run lateEcho).frames = [⟨[1, 2], [4, 2]⟩] ∧ ¬ (run lateEcho).Intact := by
  have hframes : (run lateEcho).frames = [⟨[1, 2], [4, 2]⟩] := by decide +kernel
  refine ⟨by decide +kernel, hframes, fun h => ?_⟩
  unfold Intact at h
  rw [hframes] at h
  exact absurd (h _ List.mem_cons_self rfl) (by decide)

end Echo

end Stm32F4.Usart
