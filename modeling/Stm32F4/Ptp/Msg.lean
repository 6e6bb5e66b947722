import Mathlib.Algebra.Order.Ring.Int
import Mathlib.Tactic.IntervalCases
import Stm32F4.Lib.Codec
import Stm32F4.Lib.Limbs
import Stm32F4.Ntp.Sntp
import Stm32F4.Ptp.Datatypes

/-! The messages of the PTP stack on the wire.

A message is put together in `msgObuf`, field by field over what the last one has left there, and
only `msgPackHeader` writes what all messages of a port have in common. Every function that packs a
message has a partner that takes its fields out again, and what is taken out is what was put in (the
round trips below). The fields nobody writes are the business of the port, which packs nothing but
this. -/
namespace Stm32F4.Ptp
open Lib Ntp

/-! ### Octets and words -/

/-- `htons` -/
def flip16 (x : BitVec 16) : BitVec 16 := ((x &&& 0xff) <<< 8) ||| ((x &&& 0xff00) >>> 8)

/-- `htonl` -/
def flip32 (x : BitVec 32) : BitVec 32 := htonl x

theorem flip16_flip16 (x : BitVec 16) : flip16 (flip16 x) = x := by
  simp only [flip16]
  apply BitVec.eq_of_getElem_eq
  intro i hi
  interval_cases i <;> simp

theorem flip32_flip32 (x : BitVec 32) : flip32 (flip32 x) = x := by
  simp only [flip32, htonl]
  apply BitVec.eq_of_getElem_eq
  intro i hi
  interval_cases i <;> simp

/-- Octet `k` of a word in memory, the lowest first. -/
def octetOf {w : Nat} (x : BitVec w) (k : Nat) : UInt8 := ⟨x.extractLsb' (8 * k) 8⟩

theorem toNat_octetOf {w : Nat} (x : BitVec w) (k : Nat) :
    (octetOf x k).toBitVec.toNat = x.toNat / 2 ^ (8 * k) % 2 ^ 8 := by
  rw [octetOf, BitVec.extractLsb'_toNat, Nat.shiftRight_eq_div_pow]

theorem append_octets16 (x : BitVec 16) : (octetOf x 1).toBitVec ++ (octetOf x 0).toBitVec = x := by
  have hx := x.isLt
  apply BitVec.eq_of_toNat_eq
  rw [toNat_append_eq, toNat_octetOf, toNat_octetOf]
  omega

theorem append_octets32 (x : BitVec 32) :
    (octetOf x 3).toBitVec ++ (octetOf x 2).toBitVec ++ (octetOf x 1).toBitVec ++
      (octetOf x 0).toBitVec = x := by
  have hx := x.isLt
  apply BitVec.eq_of_toNat_eq
  rw [toNat_append_eq, toNat_append_eq, toNat_append_eq, toNat_octetOf, toNat_octetOf,
    toNat_octetOf, toNat_octetOf]
  omega

def u8 : Codec UInt8 (BitVec 8) where
  size := 1
  enc x _ := ⟨x⟩
  dec f := (f 0).toBitVec
  dec_enc _ := rfl
  dec_congr f g h := by rw [h 0 (by decide)]

/-- A word that is flipped on its way. -/
def u16 : Codec UInt8 (BitVec 16) where
  size := 2
  enc x k := octetOf (flip16 x) k
  dec f := flip16 ((f 1).toBitVec ++ (f 0).toBitVec)
  dec_enc x := by rw [append_octets16, flip16_flip16]
  dec_congr f g h := by rw [h 0 (by decide), h 1 (by decide)]

def u32 : Codec UInt8 (BitVec 32) where
  size := 4
  enc x k := octetOf (flip32 x) k
  dec f := flip32 ((f 3).toBitVec ++ (f 2).toBitVec ++ (f 1).toBitVec ++ (f 0).toBitVec)
  dec_enc x := by rw [append_octets32, flip32_flip32]
  dec_congr f g h := by rw [h 0 (by decide), h 1 (by decide), h 2 (by decide), h 3 (by decide)]

/-- `memcpy` of a `ClockIdentity` -/
def identity : Codec UInt8 ClockIdentity where
  size := 8
  enc x k := x.toArray.getD k 0
  dec f := Vector.ofFn fun k => f k
  dec_enc x := by
    apply Vector.ext
    intro k hk
    simp
  dec_congr f g h := by
    apply Vector.ext
    intro k hk
    simpa using h k hk

/-- `memset((buf + i), 0, n)` -/
def zeroFrom (b : Nat → UInt8) (i n : Nat) : Nat → UInt8 := memcpy b i (fun _ => 0) n

/-! ### Packing and unpacking -/

/-- `messageType`, in the lower half of the first octet. -/
def putType (buf : Nat → UInt8) (ty : MessageType) : Nat → UInt8 :=
  let buf := u8.put buf 0 (u8.get buf 0 &&& 0xf0)
  u8.put buf 0 (u8.get buf 0 ||| ty.toCode)

/-- The timestamp behind the header. -/
def putTimestamp (buf : Nat → UInt8) (t : Timestamp) : Nat → UInt8 :=
  let buf := u16.put buf 34 t.secondsField.msb
  let buf := u32.put buf 36 t.secondsField.lsb
  u32.put buf 40 t.nanosecondsField

def getTimestamp (buf : Nat → UInt8) : Timestamp :=
  ⟨⟨u32.get buf 36, u16.get buf 34⟩, u32.get buf 40⟩

/-- The port identity behind the timestamp. -/
def putRequesting (buf : Nat → UInt8) (p : PortIdentity) : Nat → UInt8 :=
  u16.put (identity.put buf 44 p.clockIdentity) 52 p.portNumber

def getRequesting (buf : Nat → UInt8) : PortIdentity := ⟨identity.get buf 44, u16.get buf 52⟩

/-- The two words of a correction field. -/
def putCorrection (buf : Nat → UInt8) (x : BitVec 64) : Nat → UInt8 :=
  let buf := u32.put buf 8 ((x.sshiftRight 32).truncate 32)
  u32.put buf 12 (x.truncate 32)

/-- The correction field of a header. -/
def getCorrection (buf : Nat → UInt8) : BitVec 64 :=
  ((u32.get buf 8).zeroExtend 64 <<< 32) + (u32.get buf 12).zeroExtend 64

def msgUnpackHeader (buf : Nat → UInt8) : MsgHeader where
  transportSpecific := u8.get buf 0 >>> 4
  messageType := u8.get buf 0 &&& 0x0f
  versionPTP := u8.get buf 1 &&& 0x0f
  messageLength := u16.get buf 2
  domainNumber := u8.get buf 4
  flagField0 := u8.get buf 6
  flagField1 := u8.get buf 7
  correctionfield := getCorrection buf
  sourcePortIdentity := ⟨identity.get buf 20, u16.get buf 28⟩
  sequenceId := u16.get buf 30
  controlField := u8.get buf 32
  logMessageInterval := u8.get buf 33

def msgPackHeader (c : PtpClock) (buf : Nat → UInt8) : Nat → UInt8 :=
  let transport : BitVec 8 := 0x80
  let buf := u8.put buf 0 transport
  let buf := u8.put buf 1 c.portDS.versionNumber
  let buf := u8.put buf 4 c.defaultDS.domainNumber
  let buf := if c.defaultDS.twoStepFlag then u8.put buf 6 flag0TwoStep else buf
  let buf := zeroFrom buf 8 8
  let buf := identity.put buf 20 c.portDS.portIdentity.clockIdentity
  let buf := u16.put buf 28 c.portDS.portIdentity.portNumber
  u8.put buf 33 0x7f

def msgPackAnnounce (c : PtpClock) (buf : Nat → UInt8) : Nat → UInt8 :=
  let buf := putType buf .announce
  let buf := u16.put buf 2 (BitVec.ofNat 16 announceLength)
  let buf := u16.put buf 30 c.sentAnnounceSequenceId
  let buf := u8.put buf 32 ctrlOther
  let buf := u8.put buf 33 c.portDS.logAnnounceInterval
  let buf := zeroFrom buf 34 10
  let buf := u16.put buf 44 c.timePropertiesDS.currentUtcOffset
  let buf := u8.put buf 47 c.parentDS.grandmasterPriority1
  let buf := u8.put buf 48 c.defaultDS.clockQuality.clockClass
  let buf := u8.put buf 49 c.defaultDS.clockQuality.clockAccuracy
  let buf := u16.put buf 50 c.defaultDS.clockQuality.offsetScaledLogVariance
  let buf := u8.put buf 52 c.parentDS.grandmasterPriority2
  let buf := identity.put buf 53 c.parentDS.grandmasterIdentity
  let buf := u16.put buf 61 c.currentDS.stepsRemoved
  u8.put buf 63 c.timePropertiesDS.timeSource

def msgUnpackAnnounce (buf : Nat → UInt8) : MsgAnnounce where
  originTimestamp := getTimestamp buf
  currentUtcOffset := u16.get buf 44
  grandmasterPriority1 := u8.get buf 47
  grandmasterClockQuality := ⟨u8.get buf 48, u8.get buf 49, u16.get buf 50⟩
  grandmasterPriority2 := u8.get buf 52
  grandmasterIdentity := identity.get buf 53
  stepsRemoved := u16.get buf 61
  timeSource := u8.get buf 63

def msgPackSync (c : PtpClock) (buf : Nat → UInt8) (originTimestamp : Timestamp) : Nat → UInt8 :=
  let buf := putType buf .sync
  let buf := u16.put buf 2 (BitVec.ofNat 16 syncLength)
  let buf := u16.put buf 30 c.sentSyncSequenceId
  let buf := u8.put buf 32 ctrlSync
  let buf := u8.put buf 33 c.portDS.logSyncInterval
  let buf := zeroFrom buf 8 8
  putTimestamp buf originTimestamp

def msgUnpackSync (buf : Nat → UInt8) : MsgSync := ⟨getTimestamp buf⟩

def msgPackDelayReq (c : PtpClock) (buf : Nat → UInt8) (originTimestamp : Timestamp) :
    Nat → UInt8 :=
  let buf := putType buf .delayReq
  let buf := u16.put buf 2 (BitVec.ofNat 16 delayReqLength)
  let buf := u16.put buf 30 c.sentDelayReqSequenceId
  let buf := u8.put buf 32 ctrlDelayReq
  let buf := u8.put buf 33 0x7f
  let buf := zeroFrom buf 8 8
  putTimestamp buf originTimestamp

def msgUnpackDelayReq (buf : Nat → UInt8) : MsgDelayReq := ⟨getTimestamp buf⟩

/-- `sentSyncSequenceId` has been counted up in `issueSync` already. The correction field is not
written. -/
def msgPackFollowUp (c : PtpClock) (buf : Nat → UInt8) (preciseOriginTimestamp : Timestamp) :
    Nat → UInt8 :=
  let buf := putType buf .followUp
  let buf := u16.put buf 2 (BitVec.ofNat 16 followUpLength)
  let buf := u16.put buf 30 (c.sentSyncSequenceId - 1)
  let buf := u8.put buf 32 ctrlFollowUp
  let buf := u8.put buf 33 c.portDS.logSyncInterval
  putTimestamp buf preciseOriginTimestamp

def msgUnpackFollowUp (buf : Nat → UInt8) : MsgFollowUp := ⟨getTimestamp buf⟩

def msgPackDelayResp (c : PtpClock) (buf : Nat → UInt8) (header : MsgHeader)
    (receiveTimestamp : Timestamp) :
    Nat → UInt8 :=
  let buf := putType buf .delayResp
  let buf := u16.put buf 2 (BitVec.ofNat 16 delayRespLength)
  let buf := zeroFrom buf 8 8
  let buf := putCorrection buf header.correctionfield
  let buf := u16.put buf 30 header.sequenceId
  let buf := u8.put buf 32 ctrlDelayResp
  let buf := u8.put buf 33 c.portDS.logMinDelayReqInterval
  let buf := putTimestamp buf receiveTimestamp
  putRequesting buf header.sourcePortIdentity

def msgUnpackDelayResp (buf : Nat → UInt8) : MsgDelayResp := ⟨getTimestamp buf, getRequesting buf⟩

def msgPackPDelayReq (c : PtpClock) (buf : Nat → UInt8) (originTimestamp : Timestamp) :
    Nat → UInt8 :=
  let buf := putType buf .pdelayReq
  let buf := u16.put buf 2 (BitVec.ofNat 16 pdelayReqLength)
  let buf := u16.put buf 30 c.sentPDelayReqSequenceId
  let buf := u8.put buf 32 ctrlOther
  let buf := u8.put buf 33 0x7f
  let buf := zeroFrom buf 8 8
  let buf := putTimestamp buf originTimestamp
  zeroFrom buf 44 10

def msgUnpackPDelayReq (buf : Nat → UInt8) : MsgPDelayReq := ⟨getTimestamp buf⟩

def msgPackPDelayResp (buf : Nat → UInt8) (header : MsgHeader)
    (requestReceiptTimestamp : Timestamp) : Nat → UInt8 :=
  let buf := putType buf .pdelayResp
  let buf := u16.put buf 2 (BitVec.ofNat 16 pdelayRespLength)
  let buf := zeroFrom buf 8 8
  let buf := u16.put buf 30 header.sequenceId
  let buf := u8.put buf 32 ctrlOther
  let buf := u8.put buf 33 0x7f
  let buf := putTimestamp buf requestReceiptTimestamp
  putRequesting buf header.sourcePortIdentity

def msgUnpackPDelayResp (buf : Nat → UInt8) : MsgPDelayResp := ⟨getTimestamp buf, getRequesting buf⟩

def msgPackPDelayRespFollowUp (buf : Nat → UInt8) (header : MsgHeader)
    (responseOriginTimestamp : Timestamp) :
    Nat → UInt8 :=
  let buf := putType buf .pdelayRespFollowUp
  let buf := u16.put buf 2 (BitVec.ofNat 16 pdelayRespFollowUpLength)
  let buf := u16.put buf 30 header.sequenceId
  let buf := u8.put buf 32 ctrlOther
  let buf := u8.put buf 33 0x7f
  let buf := putCorrection buf header.correctionfield
  let buf := putTimestamp buf responseOriginTimestamp
  putRequesting buf header.sourcePortIdentity

def msgUnpackPDelayRespFollowUp (buf : Nat → UInt8) : MsgPDelayRespFollowUp :=
  ⟨getTimestamp buf, getRequesting buf⟩

/-- No sequence number is written, and no correction field. -/
def msgPackManagement (buf : Nat → UInt8) (offset : Timestamp) (localIp : BitVec 32) :
    Nat → UInt8 :=
  let buf := putType buf .management
  let buf := u16.put buf 2 (BitVec.ofNat 16 managementLength)
  let buf := u8.put buf 32 ctrlManagement
  let buf := u8.put buf 33 0x7f
  let buf := putTimestamp buf offset
  u32.put buf 44 localIp

def msgUnpackManagement (buf : Nat → UInt8) : MsgManagement := ⟨u32.get buf 44, getTimestamp buf⟩

/-! ### Reading behind writing -/

section Fields
variable {α : Type*} {d : Codec UInt8 α} {b : Nat → UInt8} {i j n : Nat}

theorem get_zeroFrom_of_disjoint (h : i + n ≤ j ∨ j + d.size ≤ i) :
    d.get (zeroFrom b i n) j = d.get b j := by
  apply Codec.get_congr
  intro k hk
  apply memcpy_of_not
  omega

/-- A field of zeros. -/
theorem get_zeroFrom_of_le (h : i ≤ j ∧ j + d.size ≤ i + n) :
    d.get (zeroFrom b i n) j = d.dec fun _ => 0 := by
  apply d.dec_congr
  intro k hk
  rw [zeroFrom, memcpy, if_pos (by omega)]

theorem get_putType_of_pos (ty : MessageType) (h : 0 < j) : d.get (putType b ty) j = d.get b j := by
  have hdis : 0 + u8.size ≤ j ∨ j + d.size ≤ 0 := .inl h
  rw [putType, Codec.get_put_of_disjoint hdis, Codec.get_put_of_disjoint hdis]

@[simp] theorem get_putType (ty : MessageType) :
    u8.get (putType b ty) 0 = (u8.get b 0 &&& 0xf0) ||| ty.toCode := by
  rw [putType, Codec.get_put, Codec.get_put]

theorem get_putTimestamp_of_disjoint (t : Timestamp) (h : 44 ≤ j ∨ j + d.size ≤ 34) :
    d.get (putTimestamp b t) j = d.get b j := by
  have hu16 : u16.size = 2 := rfl
  have hu32 : u32.size = 4 := rfl
  rw [putTimestamp, Codec.get_put_of_disjoint (by omega), Codec.get_put_of_disjoint (by omega),
    Codec.get_put_of_disjoint (by omega)]

theorem get_putRequesting_of_disjoint (p : PortIdentity) (h : j + d.size ≤ 44) :
    d.get (putRequesting b p) j = d.get b j := by
  rw [putRequesting, Codec.get_put_of_disjoint (by omega), Codec.get_put_of_disjoint (by omega)]

theorem get_putCorrection_of_disjoint (x : BitVec 64) (h : 16 ≤ j ∨ j + d.size ≤ 8) :
    d.get (putCorrection b x) j = d.get b j := by
  have hu32 : u32.size = 4 := rfl
  rw [putCorrection, Codec.get_put_of_disjoint (by omega), Codec.get_put_of_disjoint (by omega)]

@[simp] theorem getTimestamp_putTimestamp (t : Timestamp) :
    getTimestamp (putTimestamp b t) = t := by
  simp (disch := decide) [getTimestamp, putTimestamp, Codec.get_put_of_disjoint]

@[simp] theorem getRequesting_putRequesting (p : PortIdentity) :
    getRequesting (putRequesting b p) = p := by
  simp (disch := decide) [getRequesting, putRequesting, Codec.get_put_of_disjoint]

theorem getTimestamp_congr {b' : Nat → UInt8} (h : ∀ k, 34 ≤ k → k < 44 → b k = b' k) :
    getTimestamp b = getTimestamp b' := by
  have hget : ∀ {α : Type} (d : Codec UInt8 α) (i : Nat), 34 ≤ i → i + d.size ≤ 44 →
      d.get b i = d.get b' i :=
    fun d i hi hle => Codec.get_congr fun k hk => h _ (by omega) (by omega)
  rw [getTimestamp, getTimestamp, hget u32 36 (by decide) (by decide),
    hget u16 34 (by decide) (by decide),
    hget u32 40 (by decide) (by decide)]

theorem getTimestamp_put {i : Nat} {a : α} (h : 44 ≤ i) :
    getTimestamp (d.put b i a) = getTimestamp b :=
  getTimestamp_congr fun k hk hlt => Codec.put_apply_of_not (by omega)

theorem getTimestamp_zeroFrom_of_le (h : 44 ≤ i) : getTimestamp (zeroFrom b i n) = getTimestamp b :=
  getTimestamp_congr fun k hk hlt => memcpy_of_not (by omega)

@[simp] theorem getTimestamp_putRequesting (p : PortIdentity) :
    getTimestamp (putRequesting b p) = getTimestamp b := by
  rw [putRequesting, getTimestamp_put (by decide), getTimestamp_put (by decide)]

@[simp] theorem getTimestamp_zeroFrom : getTimestamp (zeroFrom b 34 10) = ⟨⟨0, 0⟩, 0⟩ := by
  rw [getTimestamp, get_zeroFrom_of_le (by decide), get_zeroFrom_of_le (by decide),
    get_zeroFrom_of_le (by decide)]
  decide

/-- The upper word of a number with a sign. -/
theorem toNat_upper (x : BitVec 64) :
    ((x.sshiftRight 32).truncate 32).toNat = x.toNat / 2 ^ 32 := by
  have hupper : (x.sshiftRight 32).truncate 32 = (x >>> 32).truncate 32 := by
    apply BitVec.eq_of_getLsbD_eq
    intro i hi
    have hlt : 32 + i < 64 := by omega
    have hge : ¬ 64 ≤ i := by omega
    simp [BitVec.getLsbD_setWidth, BitVec.getLsbD_sshiftRight, hlt, hge]
  have hx := x.isLt
  rw [hupper, BitVec.truncate_eq_setWidth, BitVec.toNat_setWidth, BitVec.toNat_ushiftRight,
    Nat.shiftRight_eq_div_pow]
  omega

@[simp] theorem getCorrection_putCorrection (x : BitVec 64) :
    getCorrection (putCorrection b x) = x := by
  simp (disch := decide) only [getCorrection, putCorrection, Codec.get_put_of_disjoint,
    Codec.get_put]
  have hx := x.isLt
  have hhi := toNat_upper x
  have hlo : (x.truncate 32).toNat = x.toNat % 2 ^ 32 := BitVec.toNat_setWidth ..
  apply BitVec.eq_of_toNat_eq
  generalize (x.sshiftRight 32).truncate 32 = hi at *
  generalize x.truncate 32 = lo at *
  rw [BitVec.toNat_add, BitVec.toNat_shiftLeft, BitVec.zeroExtend_eq_setWidth,
    BitVec.zeroExtend_eq_setWidth, BitVec.toNat_setWidth, BitVec.toNat_setWidth, hhi, hlo,
    Nat.shiftLeft_eq]
  omega

theorem getCorrection_congr {b' : Nat → UInt8} (h : ∀ k, 8 ≤ k → k < 16 → b k = b' k) :
    getCorrection b = getCorrection b' := by
  rw [getCorrection, getCorrection,
    Codec.get_congr fun k hk => h (8 + k) (by omega) (by change k < 4 at hk; omega),
    Codec.get_congr fun k hk => h (12 + k) (by omega) (by change k < 4 at hk; omega)]

theorem getCorrection_put {i : Nat} {a : α} (h : 16 ≤ i ∨ i + d.size ≤ 8) :
    getCorrection (d.put b i a) = getCorrection b :=
  getCorrection_congr fun k hk hlt => Codec.put_apply_of_not (by omega)

theorem getCorrection_zeroFrom_of_le (h : 16 ≤ i) :
    getCorrection (zeroFrom b i n) = getCorrection b :=
  getCorrection_congr fun k hk hlt => memcpy_of_not (by omega)

@[simp] theorem getCorrection_putType (ty : MessageType) :
    getCorrection (putType b ty) = getCorrection b := by
  rw [putType, getCorrection_put (.inr (by decide)), getCorrection_put (.inr (by decide))]

@[simp] theorem getCorrection_putTimestamp (t : Timestamp) :
    getCorrection (putTimestamp b t) = getCorrection b := by
  rw [putTimestamp, getCorrection_put (.inl (by decide)), getCorrection_put (.inl (by decide)),
    getCorrection_put (.inl (by decide))]

@[simp] theorem getCorrection_putRequesting (p : PortIdentity) :
    getCorrection (putRequesting b p) = getCorrection b := by
  rw [putRequesting, getCorrection_put (.inl (by decide)), getCorrection_put (.inl (by decide))]

@[simp] theorem getCorrection_zeroFrom : getCorrection (zeroFrom b 8 8) = 0 := by
  rw [getCorrection, get_zeroFrom_of_le (by decide), get_zeroFrom_of_le (by decide)]
  decide

end Fields

/-! ### Headers -/

/-- What is left of the first octet, and what is new. -/
theorem type_octet (x : BitVec 8) (ty : MessageType) :
    (x &&& 0xf0 ||| ty.toCode) >>> 4 = x >>> 4 ∧
      (x &&& 0xf0 ||| ty.toCode) &&& 0x0f = ty.toCode := by
  constructor
  · apply BitVec.eq_of_getLsbD_eq
    intro i hi
    cases ty <;> interval_cases i <;> simp [MessageType.toCode]
  · apply BitVec.eq_of_getLsbD_eq
    intro i hi
    cases ty <;> interval_cases i <;> simp [MessageType.toCode]

theorem transport_putType (b : Nat → UInt8) (ty : MessageType) :
    u8.get (putType b ty) 0 >>> 4 = u8.get b 0 >>> 4 := by
  rw [get_putType, (type_octet _ _).1]

theorem type_putType (b : Nat → UInt8) (ty : MessageType) :
    u8.get (putType b ty) 0 &&& 0x0f = ty.toCode := by
  rw [get_putType, (type_octet _ _).2]

/-! ### What a port sends -/

/-- The messages of a port, with what else the functions that pack them are given. -/
inductive Outgoing where
  | announce
  | sync (originTimestamp : Timestamp)
  | delayReq (originTimestamp : Timestamp)
  | followUp (preciseOriginTimestamp : Timestamp)
  | delayResp (header : MsgHeader) (receiveTimestamp : Timestamp)
  | pdelayReq (originTimestamp : Timestamp)
  | pdelayResp (header : MsgHeader) (requestReceiptTimestamp : Timestamp)
  | pdelayRespFollowUp (header : MsgHeader) (responseOriginTimestamp : Timestamp)
  | management (offset : Timestamp) (localIp : BitVec 32)

namespace Outgoing

def pack (c : PtpClock) (buf : Nat → UInt8) : Outgoing → Nat → UInt8
  | announce => msgPackAnnounce c buf
  | sync t => msgPackSync c buf t
  | delayReq t => msgPackDelayReq c buf t
  | followUp t => msgPackFollowUp c buf t
  | delayResp h t => msgPackDelayResp c buf h t
  | pdelayReq t => msgPackPDelayReq c buf t
  | pdelayResp h t => msgPackPDelayResp buf h t
  | pdelayRespFollowUp h t => msgPackPDelayRespFollowUp buf h t
  | management t ip => msgPackManagement buf t ip

def type : Outgoing → MessageType
  | announce => .announce
  | sync _ => .sync
  | delayReq _ => .delayReq
  | followUp _ => .followUp
  | delayResp _ _ => .delayResp
  | pdelayReq _ => .pdelayReq
  | pdelayResp _ _ => .pdelayResp
  | pdelayRespFollowUp _ _ => .pdelayRespFollowUp
  | management _ _ => .management

def length : Outgoing → Nat
  | announce => announceLength
  | sync _ => syncLength
  | delayReq _ => delayReqLength
  | followUp _ => followUpLength
  | delayResp _ _ => delayRespLength
  | pdelayReq _ => pdelayReqLength
  | pdelayResp _ _ => pdelayRespLength
  | pdelayRespFollowUp _ _ => pdelayRespFollowUpLength
  | management _ _ => managementLength

/-- The sequence number, for which a management message has the one of the message before. -/
def sequenceId (c : PtpClock) (old : BitVec 16) : Outgoing → BitVec 16
  | announce => c.sentAnnounceSequenceId
  | sync _ => c.sentSyncSequenceId
  | delayReq _ => c.sentDelayReqSequenceId
  | followUp _ => c.sentSyncSequenceId - 1
  | delayResp h _ => h.sequenceId
  | pdelayReq _ => c.sentPDelayReqSequenceId
  | pdelayResp h _ => h.sequenceId
  | pdelayRespFollowUp h _ => h.sequenceId
  | management _ _ => old

def controlField : Outgoing → BitVec 8
  | sync _ => ctrlSync
  | delayReq _ => ctrlDelayReq
  | followUp _ => ctrlFollowUp
  | delayResp _ _ => ctrlDelayResp
  | management _ _ => ctrlManagement
  | announce | pdelayReq _ | pdelayResp _ _ | pdelayRespFollowUp _ _ => ctrlOther

def logMessageInterval (c : PtpClock) : Outgoing → BitVec 8
  | announce => c.portDS.logAnnounceInterval
  | sync _ | followUp _ => c.portDS.logSyncInterval
  | delayResp _ _ => c.portDS.logMinDelayReqInterval
  | delayReq _ | pdelayReq _ | pdelayResp _ _ | pdelayRespFollowUp _ _ | management _ _ => 0x7f

/-- The correction field: some clear it, some answer with that of the request, and three leave it
alone. -/
def correctionfield (old : BitVec 64) : Outgoing → BitVec 64
  | sync _ | delayReq _ | pdelayReq _ | pdelayResp _ _ => 0
  | delayResp h _ | pdelayRespFollowUp h _ => h.correctionfield
  | announce | followUp _ | management _ _ => old

/-- The header of the message, over that of the one before. -/
def header (c : PtpClock) (old : MsgHeader) (o : Outgoing) : MsgHeader :=
  { old with
    messageType := o.type.toCode, messageLength := BitVec.ofNat 16 o.length
    sequenceId := o.sequenceId c old.sequenceId, controlField := o.controlField
    logMessageInterval := o.logMessageInterval c,
    correctionfield := o.correctionfield old.correctionfield }

/-- What stands behind the header. -/
inductive Body where
  | announce (m : MsgAnnounce)
  | sync (m : MsgSync)
  | delayReq (m : MsgDelayReq)
  | followUp (m : MsgFollowUp)
  | delayResp (m : MsgDelayResp)
  | pdelayReq (m : MsgPDelayReq)
  | pdelayResp (m : MsgPDelayResp)
  | pdelayRespFollowUp (m : MsgPDelayRespFollowUp)
  | management (m : MsgManagement)
deriving DecidableEq

def body (c : PtpClock) : Outgoing → Body
  | announce => .announce
      { originTimestamp := ⟨⟨0, 0⟩, 0⟩, currentUtcOffset := c.timePropertiesDS.currentUtcOffset
        grandmasterPriority1 := c.parentDS.grandmasterPriority1
        grandmasterClockQuality := c.defaultDS.clockQuality
        grandmasterPriority2 := c.parentDS.grandmasterPriority2
        grandmasterIdentity := c.parentDS.grandmasterIdentity
        stepsRemoved := c.currentDS.stepsRemoved, timeSource := c.timePropertiesDS.timeSource }
  | sync t => .sync ⟨t⟩
  | delayReq t => .delayReq ⟨t⟩
  | followUp t => .followUp ⟨t⟩
  | delayResp h t => .delayResp ⟨t, h.sourcePortIdentity⟩
  | pdelayReq t => .pdelayReq ⟨t⟩
  | pdelayResp h t => .pdelayResp ⟨t, h.sourcePortIdentity⟩
  | pdelayRespFollowUp h t => .pdelayRespFollowUp ⟨t, h.sourcePortIdentity⟩
  | management t ip => .management ⟨ip, t⟩

/-- The function that unpacks a message of that type. -/
def unpack (buf : Nat → UInt8) : MessageType → Body
  | .announce => .announce (msgUnpackAnnounce buf)
  | .sync => .sync (msgUnpackSync buf)
  | .delayReq => .delayReq (msgUnpackDelayReq buf)
  | .followUp => .followUp (msgUnpackFollowUp buf)
  | .delayResp => .delayResp (msgUnpackDelayResp buf)
  | .pdelayReq => .pdelayReq (msgUnpackPDelayReq buf)
  | .pdelayResp => .pdelayResp (msgUnpackPDelayResp buf)
  | .pdelayRespFollowUp => .pdelayRespFollowUp (msgUnpackPDelayRespFollowUp buf)
  | .management => .management (msgUnpackManagement buf)

variable (c : PtpClock) (b : Nat → UInt8) (o : Outgoing)

theorem msgUnpackHeader_pack : msgUnpackHeader (o.pack c b) = o.header c (msgUnpackHeader b) := by
  cases o <;>
    simp (disch := decide) only [msgUnpackHeader, pack, msgPackAnnounce, msgPackSync,
      msgPackDelayReq,
      msgPackFollowUp, msgPackDelayResp, msgPackPDelayReq, msgPackPDelayResp,
        msgPackPDelayRespFollowUp,
      msgPackManagement, Codec.get_put, Codec.get_put_of_disjoint, get_zeroFrom_of_disjoint,
      get_putTimestamp_of_disjoint, get_putRequesting_of_disjoint, get_putCorrection_of_disjoint,
      get_putType_of_pos, transport_putType, type_putType, getCorrection_put, getCorrection_putType,
      getCorrection_putTimestamp, getCorrection_putRequesting, getCorrection_putCorrection,
      getCorrection_zeroFrom, getCorrection_zeroFrom_of_le] <;>
    rfl

theorem unpack_pack : unpack (o.pack c b) o.type = o.body c := by
  cases o <;>
    simp (disch := decide) only [unpack, type, body, pack, msgPackAnnounce, msgPackSync,
      msgPackDelayReq, msgPackFollowUp, msgPackDelayResp, msgPackPDelayReq, msgPackPDelayResp,
      msgPackPDelayRespFollowUp, msgPackManagement, msgUnpackAnnounce, msgUnpackSync,
      msgUnpackDelayReq, msgUnpackFollowUp, msgUnpackDelayResp, msgUnpackPDelayReq,
      msgUnpackPDelayResp, msgUnpackPDelayRespFollowUp, msgUnpackManagement, Codec.get_put,
      Codec.get_put_of_disjoint, getTimestamp_put, getTimestamp_putTimestamp,
      getTimestamp_putRequesting, getTimestamp_zeroFrom, getTimestamp_zeroFrom_of_le,
      getRequesting_putRequesting]

/-- A message as it has been packed into the buffer, and the port at that time. -/
abbrev Packed := PtpClock × Outgoing

/-- The header of the port itself. -/
structure Own (c : PtpClock) (h : MsgHeader) : Prop where
  transport : h.transportSpecific = 8
  version : h.versionPTP = c.portDS.versionNumber &&& 0x0f
  domain : h.domainNumber = c.defaultDS.domainNumber
  twoStep : c.defaultDS.twoStepFlag = true → h.flagField0 = flag0TwoStep
  source : h.sourcePortIdentity = c.portDS.portIdentity

theorem own_msgPackHeader : Own c (msgUnpackHeader (msgPackHeader c b)) := by
  cases h : c.defaultDS.twoStepFlag <;>
    constructor <;>
    simp (disch := decide) [msgUnpackHeader, msgPackHeader, h, Codec.get_put_of_disjoint,
      get_zeroFrom_of_disjoint]

theorem Own.header {h : MsgHeader} (d : PtpClock) (hown : Own c h) : Own c (o.header d h) :=
  ⟨hown.transport, hown.version, hown.domain, hown.twoStep, hown.source⟩

/-- What has been packed into the buffer one after the other. -/
def packAll (b : Nat → UInt8) (ps : List Packed) : Nat → UInt8 :=
  ps.foldl (fun b p => p.2.pack p.1 b) b

theorem Own.packAll {ps : List Packed} (hown : Own c (msgUnpackHeader b)) :
    Own c (msgUnpackHeader (packAll b ps)) := by
  induction ps generalizing b with
  | nil => exact hown
  | cons p rest ih =>
    apply ih
    show Own c (msgUnpackHeader (p.2.pack p.1 b))
    rw [msgUnpackHeader_pack]
    exact Own.header c p.2 p.1 hown

/-- **The messages of a port.** Whatever a port has sent since its header was packed, the next
message is unpacked to what was packed: its header is that of its kind over the one before it, with
the port's own version, domain and identity, and behind it stands its body. -/
theorem unpack_packAll (c₀ : PtpClock) (ps : List Packed) :
    Own c₀ (msgUnpackHeader (o.pack c (packAll (msgPackHeader c₀ b) ps))) ∧
      msgUnpackHeader (o.pack c (packAll (msgPackHeader c₀ b) ps)) =
        o.header c (msgUnpackHeader (packAll (msgPackHeader c₀ b) ps)) ∧
      unpack (o.pack c (packAll (msgPackHeader c₀ b) ps)) o.type = o.body c := by
  have hown : Own c₀ (msgUnpackHeader (packAll (msgPackHeader c₀ b) ps)) :=
    Own.packAll c₀ _ (own_msgPackHeader c₀ b)
  have hheader := msgUnpackHeader_pack c (packAll (msgPackHeader c₀ b) ps) o
  refine ⟨?_, hheader, unpack_pack c _ o⟩
  rw [hheader]
  exact Own.header c₀ o c hown

end Outgoing
end Stm32F4.Ptp
