import Mathlib.Algebra.Order.Ring.Int
import Stm32F4.Hal.Eth

/-! `low_level_output`: a chain of pbufs into the transmit ring.

The segments of the chain and the buffers of the ring cut the frame in two ways that know
nothing of each other, and the two nested loops walk both at once. What they keep
(`Gathering`): the frame so far is what the buffers hold from the first descriptor on, read
as one stream, and the place where the next byte goes is where that stream has got to.
They stop at a descriptor the DMA owns, before anything is written there. -/
namespace Stm32F4.Ethernetif
open Hal Lib

inductive Err where
  | ok | mem | use
deriving DecidableEq, Repr

/-- A segment of a chain, which is a list of them. Payloads lie outside the buffers of the rings. -/
structure Pbuf where
  /-- the bytes from `payload` on -/
  payload : Nat → UInt8
  len : Nat

def Pbuf.bytes (q : Pbuf) : List UInt8 := firstCells q.payload q.len

/-- The bytes of a chain. -/
def payload (p : List Pbuf) : List UInt8 := p.flatMap Pbuf.bytes

/-- Their number, `tot_len`. -/
def totLen (p : List Pbuf) : Nat := (p.map Pbuf.len).sum

/-- A call of `memcpy`, from `off` behind the payload of `src`. -/
structure Copy where
  dst : Nat
  src : Pbuf
  off : Nat
  len : Nat

/-- The variables of the loops, the memory they write, and the calls of `memcpy` so far. -/
structure Gather where
  mem : Nat → UInt8
  buffer : Nat
  dmaTxDesc : Nat
  framelength : Nat
  bufferoffset : Nat
  copies : List Copy

def Gather.copy (s : Gather) (q : Pbuf) (payloadoffset n : Nat) : Gather :=
  { s with
    mem := memcpy s.mem (s.buffer + s.bufferoffset) (fun i => q.payload (payloadoffset + i)) n
    copies := s.copies ++ [⟨s.buffer + s.bufferoffset, q, payloadoffset, n⟩] }

section Loops
variable (tab : Nat → EthDmaDesc)

/-- The inner loop: whole buffers. It comes back with `byteslefttocopy` and
`payloadoffset`, or is left for `error`. -/
def copyFull (q : Pbuf) (byteslefttocopy payloadoffset : Nat) (s : Gather) :
    Except Gather (Nat × Nat × Gather) :=
  if _hmore : byteslefttocopy + s.bufferoffset > ethTxBufSize then
    let n := ethTxBufSize - s.bufferoffset
    let d := (tab s.dmaTxDesc).buffer2NextDescAddr
    let t := { s.copy q payloadoffset n with dmaTxDesc := d }
    if (tab d).flag ethDmaTxDescOwn then .error t
    else
      copyFull q (byteslefttocopy - n) (payloadoffset + n)
        { t with
          buffer := (tab d).buffer1Addr, framelength := s.framelength + n, bufferoffset := 0 }
  else .ok (byteslefttocopy, payloadoffset, s)
termination_by byteslefttocopy + s.bufferoffset
decreasing_by
  show byteslefttocopy - (ethTxBufSize - s.bufferoffset) + 0 < byteslefttocopy + s.bufferoffset
  have := ethTxBufSize_pos
  omega

/-- One segment. -/
def copySegment (q : Pbuf) (s : Gather) : Except Gather Gather :=
  if (tab s.dmaTxDesc).flag ethDmaTxDescOwn then .error s
  else
    match copyFull tab q q.len 0 s with
    | .error s => .error s
    | .ok (byteslefttocopy, payloadoffset, s) =>
      let s := s.copy q payloadoffset byteslefttocopy
      .ok { s with
        bufferoffset := s.bufferoffset + byteslefttocopy,
        framelength := s.framelength + byteslefttocopy }

def gather : List Pbuf → Gather → Except Gather Gather
  | [], s => .ok s
  | q :: p, s =>
    match copySegment tab q s with
    | .error s => .error s
    | .ok s => gather p s

end Loops

/-- A transmit underflow leaves the DMA suspended: it is woken up. -/
def resumeTx (h : Eth) : Eth :=
  if h.dmasr &&& ethDmasrTus ≠ 0 then { h.writeDmasr ethDmasrTus with dmatpdr := h.dmatpdr + 1 }
  else h

/-- What a call comes to: its result, the state it leaves, its calls of `memcpy`, and its call of
`HAL_ETH_TransmitFrame` with what that returned. -/
structure Output where
  err : Err
  eth : Eth
  copies : List Copy
  transmit : Option (Nat × HalStatus)

def lowLevelOutput (p : List Pbuf) (h : Eth) : Output :=
  let s := {
    mem := h.mem, buffer := (h.txTab h.txDesc).buffer1Addr, dmaTxDesc := h.txDesc
    framelength := 0, bufferoffset := 0, copies := [] }
  match gather h.txTab p s with
  | .ok s =>
    let r := halEthTransmitFrame s.framelength { h with mem := s.mem }
    ⟨.ok, resumeTx r.2, s.copies, some (s.framelength, r.1)⟩
  | .error s => ⟨.use, resumeTx { h with mem := s.mem }, s.copies, none⟩

/-! ### The memory is the loops' business -/

theorem resumeTx_mem (h : Eth) : (resumeTx h).mem = h.mem := by
  rw [resumeTx]
  split <;> rfl

theorem transmitSegment_mem (frameLength : Nat) (h : Eth) (i : Nat) :
    (transmitSegment frameLength h i).mem = h.mem := by
  simp only [transmitSegment, Eth.setTxDesc, Eth.nextTxDesc]
  split <;> split <;> rfl

theorem transmitBuffers_mem (frameLength : Nat) (h : Eth) :
    (transmitBuffers frameLength h).mem = h.mem := by
  have hloop :
      ∀ (is : List Nat) (h : Eth), (is.foldl (transmitSegment frameLength) h).mem = h.mem := by
    intro is
    induction is with
    | nil => intro h; rfl
    | cons i is ih => intro h; rw [List.foldl_cons, ih, transmitSegment_mem]
  rw [transmitBuffers]
  split
  · rfl
  · exact hloop _ _

theorem halEthTransmitFrame_mem (frameLength : Nat) (h : Eth) :
    (halEthTransmitFrame frameLength h).2.mem = h.mem := by
  have htbus : ∀ h : Eth, (resumeTbus h).mem = h.mem := by
    intro h
    rw [resumeTbus]
    split <;> rfl
  rw [halEthTransmitFrame]
  split
  · rfl
  simp only
  split
  · rfl
  split
  · rfl
  · exact (htbus _).trans (transmitBuffers_mem _ _)

/-! ### The stream through the buffers -/

section Stream
variable (tab : Nat → EthDmaDesc) (start : Nat)

/-- The DMA owns the descriptor `i` places after the first one. -/
def dmaOwns (i : Nat) : Bool := (tab (walk tab start i)).flag ethDmaTxDescOwn

/-- A copy within its segment and within one of the `count` buffers, none of the DMA's. -/
structure Copy.Within (count : Nat) (c : Copy) : Prop where
  payload : c.off + c.len ≤ c.src.len
  buffer : ∃ i, i < count ∧ dmaOwns tab start i = false ∧
    bufferAt tab start i ≤ c.dst ∧ c.dst + c.len ≤ bufferAt tab start i + ethTxBufSize

/-- All copies so far were within bounds, and nothing else was written. -/
structure Copied (mem : Nat → UInt8) (count : Nat) (s : Gather) : Prop where
  within : ∀ c ∈ s.copies, Copy.Within tab start count c
  frame : ∀ a, s.mem a ≠ mem a → ∃ c ∈ s.copies, c.dst ≤ a ∧ a < c.dst + c.len

/-- Between two copies. The frame so far is `data`, and the next byte goes to the `i`-th buffer. -/
structure Gathering (mem : Nat → UInt8) (count : Nat) (data : List UInt8) (i : Nat)
    (s : Gather) : Prop where
  copied : Copied tab start mem count s
  lt : i < count
  desc : s.dmaTxDesc = walk tab start i
  buffer : s.buffer = bufferAt tab start i
  offset_le : s.bufferoffset ≤ ethTxBufSize
  length : s.framelength = ethTxBufSize * i + s.bufferoffset
  bytes :
    firstCells (fun j => s.mem (cell ethTxBufSize (bufferAt tab start) j)) s.framelength = data
  /-- the descriptors behind were the program's -/
  owned : ∀ j, j < i → dmaOwns tab start j = false

/-- Stopped at a descriptor of the DMA that a frame of `total` bytes needs. -/
structure Blocked (mem : Nat → UInt8) (count total : Nat) (s : Gather) : Prop where
  copied : Copied tab start mem count s
  needed : ∃ i, ethTxBufSize * i < total ∧ dmaOwns tab start i = true

end Stream

variable {tab : Nat → EthDmaDesc} {start count total i : Nat} {mem : Nat → UInt8}
    {data : List UInt8}
  {s : Gather} {buff : Nat}

theorem Gathering.owns (h : Gathering tab start mem count data i s) :
    (tab s.dmaTxDesc).flag ethDmaTxDescOwn = dmaOwns tab start i := by rw [h.desc, dmaOwns]

/-- A copy within the segment and within the buffer appends to the frame. -/
theorem Gathering.copy (h : Gathering tab start mem count data i s)
    (hring : Linked tab buff ethTxBufSize count)
    (hstart : start < count) (hown : dmaOwns tab start i = false) (q : Pbuf) {off : Nat} (n : Nat)
    (hoff : off + n ≤ q.len) (hn : s.bufferoffset + n ≤ ethTxBufSize) :
    Gathering tab start mem count (data ++ firstCells (fun j => q.payload (off + j)) n) i
      { s.copy q off n with
        bufferoffset := s.bufferoffset + n, framelength := s.framelength + n } := by
  refine ⟨⟨fun c hc => ?_, fun a ha => ?_⟩, h.lt, h.desc, h.buffer, hn, ?_, ?_, h.owned⟩
  · rcases List.mem_append.mp hc with hc | hc
    · exact h.copied.within c hc
    · rw [List.mem_singleton.mp hc]
      refine ⟨hoff, i, h.lt, hown, ?_, ?_⟩
      · show _ ≤ s.buffer + s.bufferoffset
        rw [h.buffer]
        exact Nat.le_add_right _ _
      · show s.buffer + s.bufferoffset + n ≤ _
        rw [h.buffer]
        omega
  · by_cases hin : s.buffer + s.bufferoffset ≤ a ∧ a < s.buffer + s.bufferoffset + n
    · exact ⟨_, List.mem_append_right _ (List.mem_singleton_self _), hin⟩
    · have hsame : (s.copy q off n).mem a = s.mem a := if_neg hin
      have hold : s.mem a ≠ mem a := by
        rw [← hsame]
        exact ha
      obtain ⟨c, hc, hca⟩ := h.copied.frame a hold
      exact ⟨c, List.mem_append_left _ hc, hca⟩
  · show s.framelength + n = ethTxBufSize * i + (s.bufferoffset + n)
    rw [h.length, Nat.add_assoc]
  · have hbytes := h.bytes
    rw [h.length] at hbytes
    show firstCells (fun j =>
      memcpy s.mem (s.buffer + s.bufferoffset) (fun j => q.payload (off + j)) n
      (cell ethTxBufSize (bufferAt tab start) j)) (s.framelength + n) = _
    rw [h.buffer, h.length]
    exact stream_memcpy (separate_walk hring hstart) h.lt hn hbytes

/-- With a buffer full, the frame goes on at the start of the next. -/
theorem Gathering.advance (h : Gathering tab start mem count data i s) (hi : i + 1 < count)
    (hown : dmaOwns tab start i = false) (hfull : s.bufferoffset = ethTxBufSize) :
    Gathering tab start mem count data (i + 1) { s with
      dmaTxDesc := (tab s.dmaTxDesc).buffer2NextDescAddr
      buffer := (tab (tab s.dmaTxDesc).buffer2NextDescAddr).buffer1Addr, bufferoffset := 0 } := by
  have hnext : (tab s.dmaTxDesc).buffer2NextDescAddr = walk tab start (i + 1) := by
    rw [h.desc, walk_succ]
  refine ⟨⟨h.copied.within, h.copied.frame⟩, hi, hnext, ?_, Nat.zero_le _, ?_, h.bytes,
    fun j hj => ?_⟩
  · show (tab (tab s.dmaTxDesc).buffer2NextDescAddr).buffer1Addr = _
    rw [hnext, bufferAt]
  · show s.framelength = ethTxBufSize * (i + 1) + 0
    rw [h.length, hfull, Nat.mul_succ, Nat.add_zero]
  · rcases Nat.lt_succ_iff_lt_or_eq.mp hj with hlt | rfl
    · exact h.owned j hlt
    · exact hown

/-! ### The loops -/

/-- More is left than fits: the copy fills the buffer, and the frame needs the next one. -/
theorem Gathering.fill {q : Pbuf} {left done : Nat}
    (h : Gathering tab start mem count (data ++ firstCells q.payload done) i s)
    (hring : Linked tab buff ethTxBufSize count) (hstart : start < count)
    (hfit : total ≤ count * ethTxBufSize) (hown : dmaOwns tab start i = false)
    (hmore : left + s.bufferoffset > ethTxBufSize) (hsegment : done + left = q.len)
    (htotal : s.framelength + left = total) :
    i + 1 < count ∧ ethTxBufSize * (i + 1) < total ∧
      Gathering tab start mem count
        (data ++ firstCells q.payload (done + (ethTxBufSize - s.bufferoffset))) i
        { s.copy q done (ethTxBufSize - s.bufferoffset) with
          bufferoffset := s.bufferoffset + (ethTxBufSize - s.bufferoffset)
          framelength := s.framelength + (ethTxBufSize - s.bufferoffset) } := by
  have hoff := h.offset_le
  have hlen := h.length
  have hmul : ethTxBufSize * (i + 1) = ethTxBufSize * i + ethTxBufSize := Nat.mul_succ _ _
  have hlt : ethTxBufSize * (i + 1) < total := by omega
  refine ⟨?_, hlt, ?_⟩
  · rw [Nat.mul_comm count] at hfit
    exact Nat.lt_of_mul_lt_mul_left (Nat.lt_of_lt_of_le hlt hfit)
  · have hcopy := h.copy hring hstart hown q (ethTxBufSize - s.bufferoffset)
      (show done + _ ≤ q.len by omega) (by omega)
    rw [List.append_assoc, ← firstCells_add] at hcopy
    exact hcopy

/-- What the inner loop comes back with: `done` bytes of the segment are in, the rest fits the
buffer. -/
structure Filled (tab : Nat → EthDmaDesc) (start : Nat) (mem : Nat → UInt8) (count total : Nat)
    (data : List UInt8) (q : Pbuf) (left done : Nat) (s : Gather) : Prop where
  gathering : ∃ i, Gathering tab start mem count (data ++ firstCells q.payload done) i s ∧
    dmaOwns tab start i = false
  segment : done + left = q.len
  total : s.framelength + left = total
  fits : left + s.bufferoffset ≤ ethTxBufSize

theorem copyFull_spec (hring : Linked tab buff ethTxBufSize count) (hstart : start < count)
    (hfit : total ≤ count * ethTxBufSize) (q : Pbuf) (left done : Nat) (s : Gather)
    (h : Gathering tab start mem count (data ++ firstCells q.payload done) i s)
    (hown : dmaOwns tab start i = false) (hsegment : done + left = q.len)
    (htotal : s.framelength + left = total) :
    match copyFull tab q left done s with
    | .error s' => Blocked tab start mem count total s'
    | .ok (left', done', s') => Filled tab start mem count total data q left' done' s' := by
  fun_induction copyFull tab q left done s generalizing i with
  | case1 left done s hmore n d t =>
    rename_i howned
    obtain ⟨-, hlt, hcopy⟩ := h.fill hring hstart hfit hown hmore hsegment htotal
    have hd : d = walk tab start (i + 1) := by
      rw [walk_succ, ← h.desc]
    refine ⟨⟨hcopy.copied.within, hcopy.copied.frame⟩, i + 1, hlt, ?_⟩
    rw [dmaOwns, ← hd]
    exact howned
  | case2 left done s hmore n d t hfree =>
    rename_i ih
    obtain ⟨hi, -, hcopy⟩ := h.fill hring hstart hfit hown hmore hsegment htotal
    have hd : d = walk tab start (i + 1) := by
      rw [walk_succ, ← h.desc]
    have hoff := h.offset_le
    have hnext :=
      hcopy.advance hi hown (show s.bufferoffset + (ethTxBufSize - s.bufferoffset) = _ by omega)
    refine ih hnext ?_ ?_ ?_
    · rw [dmaOwns, ← hd]
      simpa using hfree
    · show done + (ethTxBufSize - s.bufferoffset) + (left - (ethTxBufSize - s.bufferoffset)) = q.len
      omega
    · show s.framelength + (ethTxBufSize - s.bufferoffset) +
        (left - (ethTxBufSize - s.bufferoffset)) = total
      omega
  | case3 left done s hmore =>
    exact ⟨⟨i, h, hown⟩, hsegment, htotal, by omega⟩

theorem Blocked.mono {total' : Nat} (h : Blocked tab start mem count total s)
    (hle : total ≤ total') :
    Blocked tab start mem count total' s := by
  obtain ⟨i, hi, hown⟩ := h.needed
  exact ⟨h.copied, i, Nat.lt_of_lt_of_le hi hle, hown⟩

/-- A segment is appended to the frame. Only the very first descriptor can be found the DMA's at
its start. -/
theorem copySegment_spec (hring : Linked tab buff ethTxBufSize count)
    (hstart : start < count) (q : Pbuf)
    (h : Gathering tab start mem count data i s) (hfirst : i = 0 ∨ dmaOwns tab start i = false)
    (hpos : 0 < total) (htotal : s.framelength + q.len ≤ total)
    (hfit : total ≤ count * ethTxBufSize) :
    match copySegment tab q s with
    | .error s' => Blocked tab start mem count total s'
    | .ok s' => s'.framelength = s.framelength + q.len ∧
        ∃ i', Gathering tab start mem count (data ++ q.bytes) i' s' ∧
          dmaOwns tab start i' = false := by
  rw [copySegment, h.owns]
  by_cases hown : dmaOwns tab start i = true
  · rw [if_pos hown]
    obtain rfl : i = 0 := hfirst.resolve_right (by rw [hown]; decide)
    exact ⟨h.copied, 0, hpos, hown⟩
  · rw [if_neg hown]
    have hfree : dmaOwns tab start i = false := by simpa using hown
    have h0 : Gathering tab start mem count (data ++ firstCells q.payload 0) i s := by
      rw [firstCells_zero, List.append_nil]
      exact h
    have hfull :=
      copyFull_spec hring hstart (Nat.le_trans htotal hfit) q q.len 0 s h0 hfree
        (Nat.zero_add _) rfl
    generalize copyFull tab q q.len 0 s = r at hfull
    match r, hfull with
    | .error s', hblocked => exact hblocked.mono htotal
    | .ok (left, done, s'), hfilled =>
      obtain ⟨i', hi', hown'⟩ := hfilled.gathering
      have hsegment := hfilled.segment
      have hcopy := hi'.copy hring hstart hown' q left (Nat.le_of_eq hsegment)
        (by rw [Nat.add_comm]; exact hfilled.fits)
      rw [List.append_assoc, ← firstCells_add, hsegment] at hcopy
      exact ⟨hfilled.total, i', hcopy, hown'⟩

/-- A chain is appended to the frame segment by segment. -/
theorem gather_spec (hring : Linked tab buff ethTxBufSize count) (hstart : start < count) {n : Nat}
    (hpos : 0 < n) (hfit : n ≤ count * ethTxBufSize) (p : List Pbuf)
    (h : Gathering tab start mem count data i s) (hfirst : i = 0 ∨ dmaOwns tab start i = false)
    (hn : s.framelength + totLen p = n) :
    match gather tab p s with
    | .error s' => Blocked tab start mem count n s'
    | .ok s' => s'.framelength = n ∧ ∃ i', Gathering tab start mem count (data ++ payload p) i' s' ∧
        (p ≠ [] ∨ dmaOwns tab start i = false → dmaOwns tab start i' = false) := by
  induction p generalizing data i s with
  | nil =>
    refine ⟨hn, i, ?_, fun hown => hown.resolve_left (fun hne => hne rfl)⟩
    rw [show payload [] = [] from rfl, List.append_nil]
    exact h
  | cons q p ih =>
    have hcons : totLen (q :: p) = q.len + totLen p := List.sum_cons
    have hsegment := copySegment_spec hring hstart q h hfirst hpos (by omega) hfit
    rw [gather]
    generalize copySegment tab q s = r at hsegment
    match r, hsegment with
    | .error s', hblocked => exact hblocked
    | .ok s', ⟨hlen, i', hi', hown'⟩ =>
      have hrest := ih hi' (.inr hown') (by rw [hlen]; omega)
      simp only
      generalize gather tab p s' = r at hrest
      match r, hrest with
      | .error s'', hblocked => exact hblocked
      | .ok s'', ⟨hn', i'', hi'', hown''⟩ =>
        refine ⟨hn', i'', ?_, fun _ => hown'' (.inr hown')⟩
        rw [List.append_assoc] at hi''
        exact hi''

/-! ### The whole call -/

/-- What a call of `low_level_output` with the chain `p` owes. -/
structure Sends (h : Eth) (p : List Pbuf) : Prop where
  /-- all the descriptors it needs are the program's: the buffers, each full but the last, hold
  the frame, and `HAL_ETH_TransmitFrame` is called with its length -/
  whole : (∀ i, i < bufcount (totLen p) → dmaOwns h.txTab h.txDesc i = false) →
    (lowLevelOutput p h).err = .ok ∧
      ((lowLevelOutput p h).transmit.map Prod.fst) = some (totLen p) ∧
      (List.range (bufcount (totLen p))).flatMap (fun i =>
        firstCells (fun o => (lowLevelOutput p h).eth.mem (bufferAt h.txTab h.txDesc i + o))
          (min ethTxBufSize (totLen p - ethTxBufSize * i))) = payload p
  /-- one of them is the DMA's -/
  refused : (∃ i, i < bufcount (totLen p) ∧ dmaOwns h.txTab h.txDesc i = true) →
    (lowLevelOutput p h).err = .use ∧ (lowLevelOutput p h).transmit = none
  /-- no copy crosses the end of a payload or of a buffer, or goes to one of the DMA's -/
  within : ∀ c ∈ (lowLevelOutput p h).copies, Copy.Within h.txTab h.txDesc ethTxBufNb c
  /-- and what the DMA owns stays -/
  spared : ∀ i, i < ethTxBufNb → dmaOwns h.txTab h.txDesc i = true → ∀ o, o < ethTxBufSize →
    (lowLevelOutput p h).eth.mem (bufferAt h.txTab h.txDesc i + o) =
      h.mem (bufferAt h.txTab h.txDesc i + o)

/-- A buffer is needed when the frame reaches it. -/
theorem lt_bufcount_iff {n i : Nat} (hn : 0 < n) : i < bufcount n ↔ ethTxBufSize * i < n := by
  have hsize : ethTxBufSize = 1524 := rfl
  rw [bufcount]
  split
  · split
    · rw [hsize] at *
      omega
    · rw [hsize] at *
      omega
  · rw [hsize] at *
    omega

theorem le_bufcount_mul {n : Nat} (hn : 0 < n) : n ≤ bufcount n * ethTxBufSize := by
  have hlast := (lt_bufcount_iff (i := bufcount n) hn).not.mp (Nat.lt_irrefl _)
  rw [Nat.mul_comm]
  omega

theorem Copied.spared (h : Copied tab start mem count s)
    (hring : Linked tab buff ethTxBufSize count)
    (hstart : start < count) (hi : i < count) (hown : dmaOwns tab start i = true) {o : Nat}
    (ho : o < ethTxBufSize) :
    s.mem (bufferAt tab start i + o) = mem (bufferAt tab start i + o) := by
  by_contra hne
  obtain ⟨c, hc, hle, hlt⟩ := h.frame _ hne
  obtain ⟨j, hj, hfree, hfrom, hto⟩ := (h.within c hc).buffer
  have hij : i ≠ j := by
    rintro rfl
    rw [hown] at hfree
    cases hfree
  have hsep : bufferAt tab start i + ethTxBufSize ≤ bufferAt tab start j ∨
      bufferAt tab start j + ethTxBufSize ≤ bufferAt tab start i :=
        separate_walk hring hstart i j hi hj hij
  omega

/-- The variables before the first segment. -/
def Gather.fresh (h : Eth) : Gather where
  mem := h.mem
  buffer := (h.txTab h.txDesc).buffer1Addr
  dmaTxDesc := h.txDesc
  framelength := 0
  bufferoffset := 0
  copies := []

theorem gathering_fresh (h : Eth) :
    Gathering h.txTab h.txDesc h.mem ethTxBufNb [] 0 (Gather.fresh h) where
  copied := ⟨fun c hc => (by cases hc), fun a ha => absurd rfl ha⟩
  lt := by decide
  desc := rfl
  buffer := rfl
  offset_le := Nat.zero_le _
  length := rfl
  bytes := rfl
  owned := fun j hj => absurd hj (Nat.not_lt_zero j)

theorem lowLevelOutput_error {h : Eth} {p : List Pbuf}
    (hs : gather h.txTab p (Gather.fresh h) = .error s) :
    lowLevelOutput p h = ⟨.use, resumeTx { h with mem := s.mem }, s.copies, none⟩ := by
  show (match gather h.txTab p (Gather.fresh h) with | .ok s => _ | .error s => _) = _
  rw [hs]

theorem lowLevelOutput_ok {h : Eth} {p : List Pbuf}
    (hs : gather h.txTab p (Gather.fresh h) = .ok s) :
    lowLevelOutput p h =
      ⟨.ok, resumeTx (halEthTransmitFrame s.framelength { h with mem := s.mem }).2, s.copies,
      some (s.framelength, (halEthTransmitFrame s.framelength { h with mem := s.mem }).1)⟩ := by
  show (match gather h.txTab p (Gather.fresh h) with | .ok s => _ | .error s => _) = _
  rw [hs]

/-- A call that has met a descriptor of the DMA. -/
theorem sends_of_blocked {h : Eth} {txBuff : Nat}
    (hring : Linked h.txTab txBuff ethTxBufSize ethTxBufNb)
    (hstart : h.txDesc < ethTxBufNb) {p : List Pbuf} (hpos : 0 < totLen p)
    (hs : gather h.txTab p (Gather.fresh h) = .error s)
    (hblocked : Blocked h.txTab h.txDesc h.mem ethTxBufNb (totLen p) s) : Sends h p := by
  obtain ⟨hcopied, i, hi, hown⟩ := hblocked
  have hout := lowLevelOutput_error hs
  have hmem : (lowLevelOutput p h).eth.mem = s.mem := by rw [hout, resumeTx_mem]
  constructor
  · intro hall
    rw [hall i ((lt_bufcount_iff hpos).mpr hi)] at hown
    cases hown
  · intro _
    rw [hout]
    exact ⟨rfl, rfl⟩
  · rw [hout]
    exact hcopied.within
  · intro i hi hown o ho
    rw [hmem]
    exact hcopied.spared hring hstart hi hown ho

/-- Every descriptor that the frame reaches was the program's. -/
theorem Gathering.free (h : Gathering tab start mem count data i s) (hlen : s.framelength = total)
    (hlast : dmaOwns tab start i = false) {j : Nat} (hj : ethTxBufSize * j < total) :
    dmaOwns tab start j = false := by
  have hoff := h.offset_le
  have hlength := h.length
  have hji : j ≤ i := by
    by_contra hgt
    have hblocks : ethTxBufSize * (i + 1) ≤ ethTxBufSize * j := Nat.mul_le_mul_left _ (by omega)
    rw [Nat.mul_succ] at hblocks
    omega
  rcases Nat.lt_or_eq_of_le hji with hlt | rfl
  · exact h.owned j hlt
  · exact hlast

/-- A call that has not. -/
theorem sends_of_gathered {h : Eth} {txBuff : Nat}
    (hring : Linked h.txTab txBuff ethTxBufSize ethTxBufNb)
    (hstart : h.txDesc < ethTxBufNb) {p : List Pbuf} (hpos : 0 < totLen p)
    (hs : gather h.txTab p (Gather.fresh h) = .ok s) (hlen : s.framelength = totLen p)
    (hgathering : Gathering h.txTab h.txDesc h.mem ethTxBufNb (payload p) i s)
    (hlast : dmaOwns h.txTab h.txDesc i = false) : Sends h p := by
  have hout := lowLevelOutput_ok hs
  have hmem : (lowLevelOutput p h).eth.mem = s.mem := by
    rw [hout, resumeTx_mem, halEthTransmitFrame_mem]
  constructor
  · intro _
    have hbytes := hgathering.bytes
    rw [hlen, stream_blocks s.mem (le_bufcount_mul hpos)] at hbytes
    rw [hmem]
    refine ⟨by rw [hout], ?_, hbytes⟩
    rw [hout]
    exact congrArg some hlen
  · rintro ⟨j, hj, hdma⟩
    rw [hgathering.free hlen hlast ((lt_bufcount_iff hpos).mp hj)] at hdma
    cases hdma
  · rw [hout]
    exact hgathering.copied.within
  · intro j hj hown o ho
    rw [hmem]
    exact hgathering.copied.spared hring hstart hj hown ho

/-- **The frame arrives whole in the buffers of the ring, or not at all**, however the chain and
the buffers cut it. -/
theorem output_sends (h : Eth) {txBuff : Nat}
    (hring : Linked h.txTab txBuff ethTxBufSize ethTxBufNb)
    (hstart : h.txDesc < ethTxBufNb) (p : List Pbuf) (hpos : 0 < totLen p)
    (hfit : bufcount (totLen p) ≤ ethTxBufNb) : Sends h p := by
  have hroom := Nat.le_trans (le_bufcount_mul hpos) (Nat.mul_le_mul_right ethTxBufSize hfit)
  have hne : p ≠ [] := by
    rintro rfl
    exact absurd hpos (Nat.lt_irrefl 0)
  have hend := gather_spec hring hstart hpos hroom p (gathering_fresh h) (.inl rfl) (Nat.zero_add _)
  cases hs : gather h.txTab p (Gather.fresh h) with
  | error s =>
    rw [hs] at hend
    exact sends_of_blocked hring hstart hpos hs hend
  | ok s =>
    rw [hs] at hend
    obtain ⟨hlen, i, hgathering, hlast⟩ := hend
    exact sends_of_gathered hring hstart hpos hs hlen hgathering (hlast (.inl hne))

/-- A driver nothing has been done with. -/
def resetEth : Eth where
  checksumByHardware := true
  rxInterruptMode := true
  rxDesc := 0
  txDesc := 0
  rxFrameInfos := ⟨0, none, 0, 0, 0⟩
  state := .ready
  lock := .unlocked
  dmasr := 0
  dmatpdr := 0
  dmarpdr := 0
  rxTab := fun _ => ⟨0, 0, 0, 0⟩
  txTab := fun _ => ⟨0, 0, 0, 0⟩
  mem := fun _ => 0

/-- A chain of three segments, the second one empty, over two buffers of a fresh ring. -/
theorem output_sends_three :
    Sends (halEthDmaTxDescListInit 0 ethTxBufNb resetEth).2
      [⟨fun _ => 1, 1520⟩, ⟨fun _ => 2, 0⟩, ⟨fun _ => 3, 10⟩] :=
  output_sends _ (halEthDmaTxDescListInit_linked rfl 0 (by decide)).1
    (halEthDmaTxDescListInit_linked rfl 0 (by decide)).2 _ (by decide) (by decide)

end Stm32F4.Ethernetif
