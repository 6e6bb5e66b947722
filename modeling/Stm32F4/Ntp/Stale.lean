import Stm32F4.Ntp.Client

/-! Corrections out of old replies.

`sntp_receive_callback` keeps the delay and the offset in static variables, sends them to the
server and, on a slave, sets the clock by the offset. `sntp_client_time_handle` has a branch for
messages without an originate time, and the offset it computes there stays in a local
variable: the static ones keep what the last other message has left in them. So the outputs are
functions of the message and the time exactly when there is an originate time
(`timely_iff`). -/
namespace Stm32F4.Ntp
open Ethernetif (Pbuf payload)
open Lib

/-- What comes of a call: the values of the static variables, the control message and the
correction. -/
def results (r : Statics × Effects) : (TimeFp × TimeFp) × Option SntpS × Option TimeFp :=
  ((r.1.delayT, r.1.offsetT), r.2.control, r.2.clock)

/-- The static variables before the first datagram. -/
def startup : Statics := ⟨⟨0, 0⟩, ⟨0, 0⟩, fun _ => 0⟩

/-- After the calls so far. -/
def after (calls : List Call) : Statics :=
  calls.foldl (fun s c => (sntpReceiveCallback c s).1) startup

/-- The lengths of pbufs have 16 bits. -/
def Call.WellFormed (c : Call) : Prop := ∀ q ∈ c.p, q.len < 2 ^ 16

/-- The message is a server's. -/
structure Call.Accepted (c : Call) : Prop where
  wellFormed : c.WellFormed
  length : sntpSize ≤ (payload c.p).length
  mode : msgMode (firstMsg (payload c.p)).liVnMd = modeServer

/-- The originate time of the message. -/
def Call.orig (c : Call) : TimeFp := htonlFp (firstMsg (payload c.p)).orig

/-- The call `c` answers for its message and its time alone, whatever has come before. -/
structure Timely (c : Call) : Prop where
  agree : ∀ calls calls' : List Call, (∀ d ∈ calls, d.WellFormed) → (∀ d ∈ calls', d.WellFormed) →
    results (sntpReceiveCallback c (after calls)) = results (sntpReceiveCallback c (after calls'))
  /-- without an originate time the offset is T3 - T4 -/
  offset : c.orig = ⟨0, 0⟩ → ∀ calls : List Call, (∀ d ∈ calls, d.WellFormed) →
    (sntpReceiveCallback c (after calls)).1.offsetT =
      tsSub (htonlFp (firstMsg (payload c.p)).xmt) c.revTime

/-! ### An accepted message -/

/-- It is handled, and the values it leaves are sent and applied. -/
theorem results_accepted {c : Call} (hc : c.Accepted) (s : Statics) :
    results (sntpReceiveCallback c s) =
      let t := sntpClientTimeHandle c.revTime (firstMsg (payload c.p)) s.delayT s.offsetT
      (t, if c.ptr then some (controlMsg t.1 t.2) else none,
        if c.slave then some t.2 else none) := by
  have h := recvChain_spec c.p hc.wellFormed (filling_start s.recvbuf)
  rw [List.nil_append] at h
  have hmsg := h.sntpMsg_eq hc.length
  have hnull : c.p ≠ [] := by
    intro hnull
    have hlen := hc.length
    rw [hnull] at hlen
    exact absurd hlen (by decide)
  have hok : ¬ ((recvChain c.p ⟨s.recvbuf, 0, []⟩).dataLen < BitVec.ofNat 32 sntpSize ∨
      msgMode (firstMsg (payload c.p)).liVnMd ≠ modeServer ∧ modeServer ≠ modeBroadcast) := by
    rintro (hlt | hne)
    · exact absurd (h.dataLen_lt_iff.mp hlt) (Nat.not_lt_of_le hc.length)
    · exact hne.1 hc.mode
  rw [sntpReceiveCallback, if_neg hnull]
  simp only [hmsg, if_neg hok]
  rfl

/-! ### An old reply -/

/-- A message of a server, zero but for the last byte of the originate time. -/
def reply (b : UInt8) (i : Nat) : UInt8 := if i = 0 then 0x1C else if i = 31 then b else 0

/-- It arrives at time zero. -/
def replyCall (b : UInt8) : Call := ⟨[⟨reply b, 48⟩], ⟨0, 0⟩, true, true⟩

theorem replyCall_msg (b : UInt8) : firstMsg (payload (replyCall b).p) = sntpMsg (reply b) := by
  have hpayload : payload (replyCall b).p = firstCells (reply b) 48 := List.append_nil _
  rw [hpayload, firstMsg]
  apply sntpMsg_congr
  intro i hi
  rw [sntpSize] at hi
  rw [List.getD_eq_getElem?_getD, firstCells, List.getElem?_map, List.getElem?_range hi]
  rfl

theorem replyCall_accepted (b : UInt8) : (replyCall b).Accepted := by
  refine ⟨fun q hq => ?_, Nat.le_refl 48, ?_⟩
  · rw [List.mem_singleton.mp hq]
    exact show 48 < 2 ^ 16 by decide
  · rw [replyCall_msg]
    show msgMode (reply b 0).toBitVec = _
    rw [reply, if_pos rfl]
    decide

theorem replyCall_wellFormed (b : UInt8) : ∀ d ∈ [replyCall b], d.WellFormed := by
  intro d hd
  rw [List.mem_singleton.mp hd]
  exact (replyCall_accepted b).wellFormed

/-- The reply to a request sent one unit after zero leaves an offset of minus one unit. -/
theorem after_reply : (after [replyCall 1]).offsetT = ⟨0xffffffff, 0xffffffff⟩ := by
  have h := congrArg (fun r => r.1.2) (results_accepted (replyCall_accepted 1) startup)
  rw [replyCall_msg] at h
  exact h.trans (by decide +kernel)

/-- A message without an originate time is not answered for: what has come before shows. -/
theorem not_timely {c : Call} (hc : c.Accepted) (hzero : c.orig = ⟨0, 0⟩) : ¬ Timely c := by
  intro h
  have hagree := h.agree [] [replyCall 1] (fun d hd => by cases hd) (replyCall_wellFormed 1)
  rw [results_accepted hc, results_accepted hc] at hagree
  have hoffset := congrArg (fun r => r.1.2) hagree
  simp only [sntpClientTimeHandle_of_zero hzero, after_reply] at hoffset
  exact absurd hoffset (by decide)

/-- **The outputs follow from the message and the time** exactly if it has an originate time. -/
theorem timely_iff {c : Call} (hc : c.Accepted) : Timely c ↔ c.orig ≠ ⟨0, 0⟩ := by
  constructor
  · intro h hzero
    exact not_timely hc hzero h
  · intro horig
    refine ⟨fun calls calls' _ _ => ?_, fun hzero => absurd hzero horig⟩
    rw [results_accepted hc, results_accepted hc]
    simp only [sntpClientTimeHandle_of_orig horig]

theorem timely_iff_reply : Timely (replyCall 1) ↔ (replyCall 1).orig ≠ ⟨0, 0⟩ :=
  timely_iff (replyCall_accepted 1)

/-- The same message without an originate time. -/
theorem stale_correction : (replyCall 0).Accepted ∧ ¬ Timely (replyCall 0) :=
  ⟨replyCall_accepted 0, not_timely (replyCall_accepted 0) (by decide +kernel)⟩

end Stm32F4.Ntp
