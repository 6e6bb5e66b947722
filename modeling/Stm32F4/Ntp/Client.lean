import Stm32F4.Ethernetif.Output
import Stm32F4.Ntp.Offset

/-! The receive callback of the SNTP client.

A datagram comes as a chain of pbufs, and `sntp_receive_callback` puts it together in a static
buffer, from which the message is taken. `data_len` counts the bytes of the segments, also those
there was no room for, so it goes beyond the size of the buffer once; then the loop is left, and
before every copy there is at most a buffer full (`Filling`). A message is handled only if the
datagram is long enough for one, and so what an earlier datagram has left in the buffer is in none
(`sntp_reassembles`).

The stack frees the chain in every case. `TimeDiff` is the offset as a `double`, and what
`NTPupdateclock` makes of it belongs to the clock. -/
namespace Stm32F4.Ntp
open Ethernetif (Pbuf payload)
open Lib

def modeServer : BitVec 8 := 4
def modeBroadcast : BitVec 8 := 5
def modeControl : BitVec 8 := 6
def leapNoWarning : BitVec 8 := 0
def sntpVersion : BitVec 8 := 3
def sntpStratum : BitVec 8 := 2
def udpSntpBufsize : BitVec 32 := 2048

/-- `sizeof(struct sntp_s)` -/
def sntpSize : Nat := 48

/-- `MSG_MODE` -/
def msgMode (liVnMd : BitVec 8) : BitVec 8 := liVnMd &&& 0x7

/-- `MSG_LI_VN_MODE` -/
def msgLiVnMode (li vn md : BitVec 8) : BitVec 8 :=
  ((li <<< 6) &&& 0xc0) ||| ((vn <<< 3) &&& 0x38) ||| (md &&& 0x7)

/-! ### The buffer -/

/-- A call of `memcpy` from the payload of `src`. -/
structure RecvCopy where
  dst : Nat
  src : Pbuf
  len : Nat

/-- `udp_sntp_recvbuf`, `data_len`, and the calls of `memcpy` so far. -/
structure Recv where
  recvbuf : Nat → UInt8
  dataLen : BitVec 32
  copies : List RecvCopy

/-- One pass of the loop: all of the segment, or what there is room for. -/
def recvSegment (q : Pbuf) (s : Recv) : Recv :=
  let n :=
    if BitVec.ofNat 32 q.len > udpSntpBufsize - s.dataLen then (udpSntpBufsize - s.dataLen).toNat
    else q.len
  { recvbuf := memcpy s.recvbuf s.dataLen.toNat q.payload n
    dataLen := s.dataLen + BitVec.ofNat 32 q.len
    copies := s.copies ++ [⟨s.dataLen.toNat, q, n⟩] }

def recvChain : List Pbuf → Recv → Recv
  | [], s => s
  | q :: p, s =>
    let s := recvSegment q s
    if s.dataLen > udpSntpBufsize then s else recvChain p s

/-- A word as the processor reads it, the lowest byte first. -/
def word (b : Nat → UInt8) (i : Nat) : BitVec 32 :=
  (b (i + 3)).toBitVec ++ (b (i + 2)).toBitVec ++ (b (i + 1)).toBitVec ++ (b i).toBitVec

def timeFp (b : Nat → UInt8) (i : Nat) : TimeFp := ⟨word b i, word b (i + 4)⟩

/-- `memcpy((char*)&sntp_msg, udp_sntp_recvbuf, sizeof(sntp_msg))` -/
def sntpMsg (b : Nat → UInt8) : SntpS where
  liVnMd := (b 0).toBitVec
  stratum := (b 1).toBitVec
  poll := (b 2).toBitVec
  percision := (b 3).toBitVec
  rootDelay := word b 4
  rootDisp := word b 8
  refId := word b 12
  refTime := timeFp b 16
  orig := timeFp b 24
  recv := timeFp b 32
  xmt := timeFp b 40

/-! ### The callback -/

/-- The message `udp_sntp_client_control_send` fills in. -/
def controlMsg (delay offset : TimeFp) : SntpS where
  liVnMd := msgLiVnMode leapNoWarning sntpVersion modeControl
  stratum := sntpStratum
  poll := 0
  percision := 0
  rootDelay := 0
  rootDisp := 0
  refId := 0
  refTime := ⟨0, 0⟩
  orig := ⟨0, 0⟩
  recv := htonlFp offset
  xmt := htonlFp delay

/-- A call of `sntp_receive_callback`, and what the program around it has to say in that call. -/
structure Call where
  /-- the chain; `NULL` is the empty one -/
  p : List Pbuf
  /-- what `get_sys_timer` gives -/
  revTime : TimeFp
  /-- whether `pbuf_alloc` has a pbuf for the control message -/
  ptr : Bool
  /-- `TS_FDS.PTP_MODE == emNTPSlave` -/
  slave : Bool

/-- The static variables. -/
structure Statics where
  delayT : TimeFp
  offsetT : TimeFp
  recvbuf : Nat → UInt8

/-- What a call does: the copies, the message handed to `sntp_client_time_handle`, the control
message sent, and the offset `NTPupdateclock` is called with. -/
structure Effects where
  copies : List RecvCopy
  msg : Option SntpS
  control : Option SntpS
  clock : Option TimeFp

def sntpReceiveCallback (c : Call) (s : Statics) : Statics × Effects :=
  if c.p = [] then (s, ⟨[], none, none, none⟩)
  else
    let mode := modeServer
    let r := recvChain c.p ⟨s.recvbuf, 0, []⟩
    let msg := sntpMsg r.recvbuf
    if r.dataLen < BitVec.ofNat 32 sntpSize ∨ msgMode msg.liVnMd ≠ mode ∧ mode ≠ modeBroadcast then
      ({ s with recvbuf := r.recvbuf }, ⟨r.copies, none, none, none⟩)
    else
      let t := sntpClientTimeHandle c.revTime msg s.delayT s.offsetT
      (⟨t.1, t.2, r.recvbuf⟩,
        ⟨r.copies, some msg, if c.ptr then some (controlMsg t.1 t.2) else none,
          if c.slave then some t.2 else none⟩)

/-! ### The loop -/

/-- What is asked of the loop for a datagram of these bytes. -/
structure Reassembled (buf : Nat → UInt8) (bytes : List UInt8) (r : Recv) : Prop where
  /-- the bytes there is room for are at the start of the buffer -/
  copied : firstCells r.recvbuf (min bytes.length 2048) = bytes.take 2048
  /-- and nothing else has changed -/
  rest : ∀ i, min bytes.length 2048 ≤ i → r.recvbuf i = buf i
  /-- no copy goes past the end, neither did `data_len` at any of them -/
  within : ∀ c ∈ r.copies, c.dst + c.len ≤ 2048 ∧ c.len ≤ c.src.len
  dataLen : min r.dataLen.toNat 2049 = min bytes.length 2049

/-- Between two segments: these bytes are in, and there may be room for more. -/
structure Filling (buf : Nat → UInt8) (bytes : List UInt8) (s : Recv) : Prop where
  dataLen : s.dataLen.toNat = bytes.length
  fits : bytes.length ≤ 2048
  copied : firstCells s.recvbuf bytes.length = bytes
  rest : ∀ i, bytes.length ≤ i → s.recvbuf i = buf i
  within : ∀ c ∈ s.copies, c.dst + c.len ≤ 2048 ∧ c.len ≤ c.src.len

theorem length_bytes (q : Pbuf) : q.bytes.length = q.len := length_firstCells _ _

section Loop
variable {buf : Nat → UInt8} {bytes : List UInt8} {s : Recv} {q : Pbuf}

theorem Filling.reassembled (h : Filling buf bytes s) : Reassembled buf bytes s := by
  have hfits := h.fits
  refine ⟨?_, fun i hi => h.rest i (by omega), h.within, by rw [h.dataLen]⟩
  rw [Nat.min_eq_left hfits, h.copied, List.take_of_length_le hfits]

/-- A pass copies what there is room for, and counts all. -/
theorem Filling.recvSegment_spec (h : Filling buf bytes s) (hq : q.len < 2 ^ 16) :
    (recvSegment q s).recvbuf =
      memcpy s.recvbuf bytes.length q.payload (min q.len (2048 - bytes.length)) ∧
      (recvSegment q s).dataLen.toNat = bytes.length + q.len ∧
      ∀ c ∈ (recvSegment q s).copies, c.dst + c.len ≤ 2048 ∧ c.len ≤ c.src.len := by
  have hfits := h.fits
  have hdata := h.dataLen
  have hlen : (BitVec.ofNat 32 q.len).toNat = q.len := by
    rw [BitVec.toNat_ofNat]
    omega
  have hroom : (udpSntpBufsize - s.dataLen).toNat = 2048 - bytes.length := by
    rw [BitVec.toNat_sub, hdata]
    show (2 ^ 32 - bytes.length + 2048) % 2 ^ 32 = _
    omega
  have hn :
      (if BitVec.ofNat 32 q.len > udpSntpBufsize - s.dataLen then (udpSntpBufsize - s.dataLen).toNat
      else q.len) = min q.len (2048 - bytes.length) := by
    simp only [gt_iff_lt, BitVec.lt_def, hlen, hroom]
    split <;> omega
  refine ⟨?_, ?_, ?_⟩
  · rw [recvSegment, hn, hdata]
  · rw [recvSegment, BitVec.toNat_add, hdata, hlen]
    omega
  · rw [recvSegment, hn, hdata]
    refine List.forall_mem_append.mpr ⟨h.within,
      List.forall_mem_singleton.mpr ⟨?_, Nat.min_le_left _ _⟩⟩
    show bytes.length + min q.len (2048 - bytes.length) ≤ 2048
    omega

/-- A segment there is room for. -/
theorem Filling.next (h : Filling buf bytes s) (hq : q.len < 2 ^ 16)
    (hroom : bytes.length + q.len ≤ 2048) :
    Filling buf (bytes ++ q.bytes) (recvSegment q s) := by
  obtain ⟨hbuf, hdata, hwithin⟩ := h.recvSegment_spec hq
  have hlen : (bytes ++ q.bytes).length = bytes.length + q.len := by
    rw [List.length_append, length_bytes]
  rw [Nat.min_eq_left (by omega)] at hbuf
  refine ⟨hdata.trans hlen.symm, by omega, ?_, fun i hi => ?_, hwithin⟩
  · rw [hbuf, hlen, firstCells_memcpy, h.copied, Pbuf.bytes]
  · rw [hbuf, memcpy_of_not (by omega)]
    exact h.rest i (by omega)

/-- One there is not: the buffer is full, and what follows does not matter. -/
theorem Filling.last (h : Filling buf bytes s) (hq : q.len < 2 ^ 16)
    (hroom : 2048 < bytes.length + q.len)
    (more : List UInt8) : Reassembled buf (bytes ++ (q.bytes ++ more)) (recvSegment q s) := by
  obtain ⟨hbuf, hdata, hwithin⟩ := h.recvSegment_spec hq
  have hfits := h.fits
  have hlen : (bytes ++ (q.bytes ++ more)).length = bytes.length + (q.len + more.length) := by
    rw [List.length_append, List.length_append, length_bytes]
  rw [Nat.min_eq_right (show 2048 - bytes.length ≤ q.len by omega)] at hbuf
  refine ⟨?_, fun i hi => ?_, hwithin, by omega⟩
  · have hcells :
        firstCells q.payload (2048 - bytes.length) = q.bytes.take (2048 - bytes.length) := by
      rw [Pbuf.bytes, firstCells, firstCells, ← List.map_take, List.take_range,
        Nat.min_eq_left (by omega)]
    rw [hbuf, hlen, Nat.min_eq_right (by omega), List.take_append, List.take_of_length_le hfits,
      List.take_append_of_le_length (by rw [length_bytes]; omega), ← hcells]
    have hmem := firstCells_memcpy s.recvbuf q.payload bytes.length (2048 - bytes.length)
    rw [Nat.add_sub_cancel' hfits, h.copied] at hmem
    exact hmem
  · rw [hbuf, memcpy_of_not (by omega)]
    exact h.rest i (by omega)

/-- All segments: the loop is left at the first there is no room for. -/
theorem recvChain_spec (p : List Pbuf) (hp : ∀ q ∈ p, q.len < 2 ^ 16) (h : Filling buf bytes s) :
    Reassembled buf (bytes ++ payload p) (recvChain p s) := by
  induction p generalizing bytes s with
  | nil =>
    rw [show payload [] = [] from rfl, List.append_nil]
    exact h.reassembled
  | cons q p ih =>
    have hq := hp q List.mem_cons_self
    have hdata := (h.recvSegment_spec hq).2.1
    rw [show payload (q :: p) = q.bytes ++ payload p from List.flatMap_cons, recvChain]
    by_cases hroom : bytes.length + q.len ≤ 2048
    · have hgo : ¬ (recvSegment q s).dataLen > udpSntpBufsize := by
        rw [gt_iff_lt, BitVec.lt_def, hdata]
        exact Nat.not_lt_of_le hroom
      rw [if_neg hgo, ← List.append_assoc]
      exact ih (fun r hr => hp r (List.mem_cons_of_mem q hr)) (h.next hq hroom)
    · have hstop : (recvSegment q s).dataLen > udpSntpBufsize := by
        rw [gt_iff_lt, BitVec.lt_def, hdata]
        exact Nat.lt_of_not_le hroom
      rw [if_pos hstop]
      exact h.last hq (Nat.lt_of_not_le hroom) _

end Loop

theorem filling_start (buf : Nat → UInt8) : Filling buf [] ⟨buf, 0, []⟩ :=
  ⟨rfl, Nat.zero_le _, rfl, fun _ _ => rfl, fun c hc => by cases hc⟩

/-! ### The message -/

/-- A message is its 48 bytes. -/
theorem sntpMsg_congr {b b' : Nat → UInt8} (h : ∀ i, i < sntpSize → b i = b' i) :
    sntpMsg b = sntpMsg b' := by
  have hword : ∀ i, i + 3 < sntpSize → word b i = word b' i := by
    intro i hi
    rw [word, word, h (i + 3) hi, h (i + 2) (by omega), h (i + 1) (by omega), h i (by omega)]
  have htime : ∀ i, i + 7 < sntpSize → timeFp b i = timeFp b' i := by
    intro i hi
    rw [timeFp, timeFp, hword i (by omega), hword (i + 4) (by omega)]
  rw [sntpMsg, sntpMsg, h 0 (by decide), h 1 (by decide), h 2 (by decide), h 3 (by decide),
    hword 4 (by decide),
    hword 8 (by decide), hword 12 (by decide), htime 16 (by decide), htime 24 (by decide),
    htime 32 (by decide), htime 40 (by decide)]

/-- The message at the start of a datagram. -/
def firstMsg (bytes : List UInt8) : SntpS := sntpMsg fun i => bytes.getD i 0

/-- The message in the buffer is the datagram's if that is long enough. -/
theorem Reassembled.sntpMsg_eq {buf : Nat → UInt8} {bytes : List UInt8} {r : Recv}
    (h : Reassembled buf bytes r) (hlen : sntpSize ≤ bytes.length) :
    sntpMsg r.recvbuf = firstMsg bytes := by
  rw [firstMsg]
  apply sntpMsg_congr
  intro i hi
  have hi' : i < min bytes.length 2048 := by
    rw [sntpSize] at hi hlen
    omega
  have hget := congrArg (fun l => l[i]?) h.copied
  simp only [firstCells, List.getElem?_map, List.getElem?_range hi', Option.map_some] at hget
  rw [List.getElem?_take_of_lt (by omega)] at hget
  rw [List.getD_eq_getElem?_getD, ← hget]
  rfl

/-- Whether it is too short is what the callback asks. -/
theorem Reassembled.dataLen_lt_iff {buf : Nat → UInt8} {bytes : List UInt8} {r : Recv}
    (h : Reassembled buf bytes r) : r.dataLen < BitVec.ofNat 32 sntpSize ↔
      bytes.length < sntpSize := by
  have hdata := h.dataLen
  rw [BitVec.lt_def, sntpSize]
  show _ < 48 ↔ _
  omega

/-- What is asked of a call of the callback. -/
structure Reassembles (c : Call) (s : Statics) (r : Statics × Effects) : Prop where
  copied : firstCells r.1.recvbuf (min (payload c.p).length 2048) = (payload c.p).take 2048
  rest : ∀ i, min (payload c.p).length 2048 ≤ i → r.1.recvbuf i = s.recvbuf i
  within : ∀ e ∈ r.2.copies, e.dst + e.len ≤ 2048 ∧ e.len ≤ e.src.len
  /-- a message is handled only if the datagram is long enough, and it is the datagram's -/
  msg : ∀ m, r.2.msg = some m → sntpSize ≤ (payload c.p).length ∧ m = firstMsg (payload c.p)

/-- **Datagrams are put together within the buffer.** -/
theorem sntp_reassembles (c : Call) (s : Statics) (hp : ∀ q ∈ c.p, q.len < 2 ^ 16) :
    Reassembles c s (sntpReceiveCallback c s) := by
  have h := recvChain_spec c.p hp (filling_start s.recvbuf)
  rw [List.nil_append] at h
  by_cases hnull : c.p = []
  · rw [sntpReceiveCallback, if_pos hnull]
    refine ⟨?_, fun _ _ => rfl, fun e he => (by cases he), fun m hm => by cases hm⟩
    rw [hnull]
    rfl
  rw [sntpReceiveCallback, if_neg hnull]
  simp only
  split
  · exact ⟨h.copied, h.rest, h.within, fun m hm => by cases hm⟩
  · next hok =>
    have hlen := Nat.le_of_not_lt (mt h.dataLen_lt_iff.mpr (fun hlt => hok (.inl hlt)))
    refine ⟨h.copied, h.rest, h.within, fun m hm => ⟨hlen, ?_⟩⟩
    rw [← Option.some.inj hm]
    exact h.sntpMsg_eq hlen

/-- A message in two segments with an empty one between them. -/
def sampleChain : List Pbuf := [⟨fun _ => 0x1C, 20⟩, ⟨fun _ => 0, 0⟩, ⟨fun _ => 0, 28⟩]

theorem sntp_reassembles_sample :
    Reassembles ⟨sampleChain, ⟨0, 0⟩, true, true⟩ ⟨⟨0, 0⟩, ⟨0, 0⟩, fun _ => 0⟩
      (sntpReceiveCallback ⟨sampleChain, ⟨0, 0⟩, true, true⟩ ⟨⟨0, 0⟩, ⟨0, 0⟩, fun _ => 0⟩) :=
  sntp_reassembles _ _ (by decide)

end Stm32F4.Ntp
