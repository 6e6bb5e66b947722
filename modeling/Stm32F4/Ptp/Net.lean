import Mathlib.Algebra.Order.Ring.Int
import Mathlib.Algebra.Order.Group.Multiset
import Mathlib.Tactic.Abel
import Stm32F4.Lib.Fifo
import Stm32F4.Lib.Run
import Stm32F4.Ptp.Datatypes

/-! Datagrams of the PTP stack.

The callbacks of the two ports put each chain of pbufs into a queue of four, and the protocol takes
them out one at a time, as the octets of a datagram (`netRecv_copies`). Over any run of calls the
queues are two lists (`net_results`). Whoever takes a chain from its queue owns it, and what
becomes of the chains is a matter of accounts: a chain has been freed, or is in a queue, or is lost.
Lost are those that are longer than a packet may be, and those a new start finds in the
queues (`net_account`).

In a run the calls come one after the other. The callbacks run in an interrupt, though, while the
protocol takes chains out in the main loop, and nothing keeps them from coming in the
middle of `netQGet`: what comes between the load and the store of the count is lost from it, and
the queue is no queue any more (`netQGet_interrupted`). -/
namespace Stm32F4.Ptp
open Ethernetif (Pbuf payload totLen)
open Lib

def pbufQueueSize : Nat := 4

/-! ### The queue -/

def netQInit (q : BufQueue) : BufQueue := { q with get := 0, put := 0, count := 0 }

def netQPut (q : BufQueue) (p : List Pbuf) : BufQueue × Bool :=
  if q.count ≥ pbufQueueSize then (q, false)
  else
    ({ q with
      pbuf := Function.update q.pbuf q.put p, put := (q.put + 1) % pbufQueueSize
      count := q.count + 1 }, true)

/-- A call that is not interrupted; see `netQGetInterrupted`. -/
def netQGet (q : BufQueue) : BufQueue × Option (List Pbuf) :=
  if q.count = 0 then (q, none)
  else ({ q with get := (q.get + 1) % pbufQueueSize, count := q.count - 1 }, some (q.pbuf q.get))

/-- The callbacks run in the interrupt of the Ethernet and may come in the middle of a call: here
between the load of the count, which the queue still has, and the store of one less. -/
def netQGetInterrupted (q : BufQueue) (ps : List (List Pbuf)) : BufQueue × Option (List Pbuf) :=
  if q.count = 0 then (q, none)
  else
    let r := ps.foldl (fun q p => (netQPut q p).1) { q with get := (q.get + 1) % pbufQueueSize }
    ({ r with count := q.count - 1 }, some (q.pbuf q.get))

def netQCheck (q : BufQueue) : Bool := q.count != 0

/-- The loop of `netQEmpty`, with the chains that are freed. -/
def netQEmptyLoop : Nat → BufQueue → BufQueue × List (List Pbuf)
  | 0, q => (q, [])
  | cnt + 1, q =>
    let (q, p) := netQGet q
    let (q, freed) := netQEmptyLoop cnt q
    (q, p.toList ++ freed)

def netQEmpty (q : BufQueue) : BufQueue × List (List Pbuf) := netQEmptyLoop q.count q

/-! ### Datagrams -/

/-- The loop of `netRecv`, for the octets from `i` on: `pcopy` and `j` are the segment and the place
in it. -/
def recvCopy : (left i : Nat) → (pcopy : List Pbuf) → (j : Nat) → (Nat → UInt8) → Nat → UInt8
  | 0, _, _, _, buf => buf
  | _ + 1, _, [], _, buf => buf
  | left + 1, i, q :: p, j, buf =>
    let buf := Function.update buf i (q.payload j)
    if j + 1 = q.len then recvCopy left (i + 1) p 0 buf
    else recvCopy left (i + 1) (q :: p) (j + 1) buf

/-- What a call of `netRecv` comes to: the queue, the buffer, the length it returns, whether it has
asked for the time, and the chain it has freed or taken from the queue and kept. -/
structure NetRecv where
  queue : BufQueue
  buf : Nat → UInt8
  length : Nat
  timed : Bool
  freed : List (List Pbuf)
  kept : List (List Pbuf)

def netRecv (buf : Nat → UInt8) (msgQueue : BufQueue) : NetRecv :=
  match netQGet msgQueue with
  | (queue, none) => { queue, buf, length := 0, timed := false, freed := [], kept := [] }
  | (queue, some p) =>
    if totLen p > packetSize then
      { queue, buf, length := 0, timed := false, freed := [], kept := [p] }
    else
      { queue, buf := recvCopy (totLen p) 0 p 0 buf, length := totLen p, timed := true
        freed := [p], kept := [] }

/-! ### The queue as a ring -/

def BufQueue.fifo (q : BufQueue) : Fifo (List Pbuf) := ⟨q.pbuf, q.get, q.put, q.count⟩

/-- The chains in the queue, the next one first. -/
def BufQueue.contents (q : BufQueue) : List (List Pbuf) := q.fifo.contents pbufQueueSize

def BufQueue.Valid (q : BufQueue) : Prop := q.fifo.Valid pbufQueueSize

section Queue
variable {q : BufQueue}

theorem netQPut_fifo (p : List Pbuf) :
    ((netQPut q p).1.fifo, (netQPut q p).2) = q.fifo.push pbufQueueSize p := by
  rw [netQPut, Fifo.push]
  by_cases h : q.count ≥ pbufQueueSize
  · have h' : q.fifo.count ≥ pbufQueueSize := h
    rw [if_pos h, if_pos h']
  · have h' : ¬ q.fifo.count ≥ pbufQueueSize := h
    rw [if_neg h, if_neg h']
    rfl

theorem netQGet_fifo : ((netQGet q).1.fifo, (netQGet q).2) = q.fifo.pop pbufQueueSize := by
  rw [netQGet, Fifo.pop]
  by_cases h : q.count = 0
  · have h' : q.fifo.count = 0 := h
    rw [if_pos h, if_pos h']
  · have h' : ¬ q.fifo.count = 0 := h
    rw [if_neg h, if_neg h']
    rfl

theorem netQPut_eq (h : q.Valid) (p : List Pbuf) : (netQPut q p).1.Valid ∧
    (netQPut q p).2 = decide (q.contents.length < pbufQueueSize) ∧
    (netQPut q p).1.contents =
      if q.contents.length < pbufQueueSize then q.contents ++ [p] else q.contents := by
  have hfifo := netQPut_fifo (q := q) p
  have hpush := Fifo.push_eq (a := p) h
  rw [← hfifo] at hpush
  exact hpush

theorem netQGet_eq (h : q.Valid) : (netQGet q).1.Valid ∧ (netQGet q).2 = q.contents.head? ∧
    (netQGet q).1.contents = q.contents.tail := by
  have hpop := Fifo.pop_eq h
  rw [← netQGet_fifo] at hpop
  exact hpop

theorem fifo_foldl_netQPut (q : BufQueue) (ps : List (List Pbuf)) :
    ps.foldl (fun r p => (r.push pbufQueueSize p).1) q.fifo =
      (ps.foldl (fun q p => (netQPut q p).1) q).fifo :=
  List.foldl_hom BufQueue.fifo fun _ p => (congrArg Prod.fst (netQPut_fifo p)).symm

theorem netQGetInterrupted_fifo (ps : List (List Pbuf)) :
    ((netQGetInterrupted q ps).1.fifo, (netQGetInterrupted q ps).2) =
      q.fifo.popInterrupted pbufQueueSize ps := by
  rw [netQGetInterrupted, Fifo.popInterrupted]
  by_cases h : q.count = 0
  · have h' : q.fifo.count = 0 := h
    rw [if_pos h, if_pos h']
  · have h' : ¬ q.fifo.count = 0 := h
    have hpush := fifo_foldl_netQPut { q with get := (q.get + 1) % pbufQueueSize } ps
    rw [if_neg h, if_neg h']
    exact congrArg (fun r : Fifo _ =>
      ({ r with count := q.count - 1 }, some (q.pbuf q.get))) hpush.symm

theorem netQInit_eq (q : BufQueue) : (netQInit q).Valid ∧ (netQInit q).contents = [] :=
  ⟨Fifo.valid_clear (by decide) q.fifo, rfl⟩

theorem netQCheck_eq : netQCheck q = !q.contents.isEmpty := by
  have hlen : q.contents.length = q.count := Fifo.length_contents
  rw [netQCheck]
  cases hc : q.contents with
  | nil =>
    rw [hc] at hlen
    rw [← hlen]
    rfl
  | cons p rest =>
    rw [hc] at hlen
    rw [← hlen]
    rfl

/-- Emptying the queue frees what is in it, in order. -/
theorem netQEmptyLoop_eq {n : Nat} (h : q.Valid) (hn : q.contents.length ≤ n) :
    (netQEmptyLoop n q).1.Valid ∧ (netQEmptyLoop n q).1.contents = [] ∧
      (netQEmptyLoop n q).2 = q.contents := by
  induction n generalizing q with
  | zero =>
    have hnil : q.contents = [] := List.length_eq_zero_iff.mp (Nat.le_zero.mp hn)
    exact ⟨h, hnil, hnil.symm⟩
  | succ n ih =>
    obtain ⟨hv, hhead, htail⟩ := netQGet_eq h
    have hlen : (netQGet q).1.contents.length ≤ n := by
      rw [htail, List.length_tail]
      omega
    obtain ⟨hv', hnil, hfreed⟩ := ih hv hlen
    refine ⟨hv', hnil, ?_⟩
    show (netQGet q).2.toList ++ (netQEmptyLoop n (netQGet q).1).2 = q.contents
    rw [hfreed, hhead, htail]
    cases q.contents <;> rfl

theorem netQEmpty_eq (h : q.Valid) :
    (netQEmpty q).1.Valid ∧ (netQEmpty q).1.contents = [] ∧ (netQEmpty q).2 = q.contents :=
  netQEmptyLoop_eq h (Nat.le_of_eq Fifo.length_contents)

end Queue

/-- **What comes in the middle of a call is lost from the count.** The call returns the next chain
and leaves the others, but not those that came: `put` has passed them, unless there were none or
they found no room. -/
theorem netQGet_interrupted {q : BufQueue} (h : q.Valid) (hne : q.contents ≠ [])
    (ps : List (List Pbuf)) :
    (netQGetInterrupted q ps).2 = q.contents.head? ∧
      (netQGetInterrupted q ps).1.contents = q.contents.tail ∧
      ((netQGetInterrupted q ps).1.Valid ↔ ps = [] ∨ q.contents.length = pbufQueueSize) := by
  have hlen : q.contents.length = q.count := Fifo.length_contents
  have hpos : 0 < q.count := hlen ▸ List.length_pos_iff.mpr hne
  have hpop := Fifo.popInterrupted_eq h hpos ps
  rw [← netQGetInterrupted_fifo] at hpop
  rw [hlen]
  exact hpop

/-- A chain waits, and another one comes in the middle of the call that takes it. -/
def oneWaiting : BufQueue := (netQPut (netQInit default) [⟨fun _ => 1, 2⟩]).1

theorem netQGet_interrupted_oneWaiting :
    (netQGetInterrupted oneWaiting [[⟨fun _ => 2, 2⟩]]).1.contents = [] ∧
      ¬ (netQGetInterrupted oneWaiting [[⟨fun _ => 2, 2⟩]]).1.Valid := by
  have hvalid : oneWaiting.Valid := (netQPut_eq (netQInit_eq default).1 _).1
  have hone : oneWaiting.contents = [[⟨fun _ => 1, 2⟩]] := rfl
  have hne : oneWaiting.contents ≠ [] := by simp [hone]
  obtain ⟨-, hrest, hiff⟩ := netQGet_interrupted hvalid hne [[⟨fun _ => 2, 2⟩]]
  refine ⟨hrest, fun hv => ?_⟩
  rcases hiff.mp hv with h | h
  · cases h
  · rw [hone] at h
    exact absurd h (by decide)

/-- From then on the chain that was lost comes in the place of a later one. -/
example (p : List Pbuf) :
    (netQGet (netQPut (netQGetInterrupted oneWaiting [[⟨fun _ => 2, 2⟩]]).1 p).1).2 =
      some [⟨fun _ => 2, 2⟩] := rfl

/-! ### What a datagram becomes -/

/-- No segment is empty. -/
def Solid (p : List Pbuf) : Prop := ∀ q ∈ p, 0 < q.len

instance (p : List Pbuf) : Decidable (Solid p) := inferInstanceAs (Decidable (∀ q ∈ p, 0 < q.len))

/-- The octets of a chain, from place `j` of its first segment on. -/
def octetsFrom : List Pbuf → Nat → List UInt8
  | [], _ => []
  | q :: p, j => (firstCells q.payload q.len).drop j ++ payload p

theorem octetsFrom_zero (p : List Pbuf) : octetsFrom p 0 = payload p := by
  cases p with
  | nil => rfl
  | cons q p => rfl

theorem octetsFrom_of_lt {q : Pbuf} {j : Nat} (p : List Pbuf) (h : j < q.len) :
    octetsFrom (q :: p) j =
      q.payload j :: if j + 1 = q.len then octetsFrom p 0 else octetsFrom (q :: p) (j + 1) := by
  have hlen : j < (firstCells q.payload q.len).length := by rwa [length_firstCells]
  have hcell : (firstCells q.payload q.len)[j] = q.payload j := by simp [firstCells]
  rw [octetsFrom, List.drop_eq_getElem_cons hlen, hcell, List.cons_append]
  by_cases hlast : j + 1 = q.len
  · rw [if_pos hlast, octetsFrom_zero, List.drop_eq_nil_of_le (by rw [length_firstCells, hlast]),
      List.nil_append]
  · rw [if_neg hlast, octetsFrom]

theorem firstCells_cons (f : Nat → UInt8) (n : Nat) :
    firstCells f (n + 1) = f 0 :: firstCells (fun k => f (k + 1)) n := by
  simp only [firstCells, List.range_succ_eq_map, List.map_cons, List.map_map]
  rfl

/-- The loop copies what is left of the chain, and writes nothing else. -/
theorem recvCopy_eq {left i j : Nat} {p : List Pbuf} (buf : Nat → UInt8) (hp : Solid p)
    (hj : ∀ q ∈ p.head?, j < q.len) (hleft : (octetsFrom p j).length = left) :
    firstCells (fun k => recvCopy left i p j buf (i + k)) left = octetsFrom p j ∧
      ∀ k, k < i ∨ i + left ≤ k → recvCopy left i p j buf k = buf k := by
  induction left generalizing i j p buf with
  | zero =>
    rw [List.length_eq_zero_iff.mp hleft]
    exact ⟨rfl, fun _ _ => rfl⟩
  | succ left ih =>
    cases p with
    | nil => simp [octetsFrom] at hleft
    | cons q p =>
      have hlt : j < q.len := hj q rfl
      have hcons := octetsFrom_of_lt p hlt
      -- The rest of the chain, of which the loop goes on to copy what is left.
      obtain ⟨p', j', hp', hj', hrest, hstep⟩ : ∃ p' j', Solid p' ∧ (∀ q ∈ p'.head?, j' < q.len) ∧
          octetsFrom (q :: p) j = q.payload j :: octetsFrom p' j' ∧
            recvCopy (left + 1) i (q :: p) j buf =
            recvCopy left (i + 1) p' j' (Function.update buf i (q.payload j)) := by
        by_cases hlast : j + 1 = q.len
        · rw [if_pos hlast] at hcons
          have hsolid : Solid p := fun r hr => hp r (List.mem_cons_of_mem _ hr)
          exact ⟨p, 0, hsolid, fun r hr => hsolid r (List.mem_of_head? hr), hcons, by
            rw [recvCopy, if_pos hlast]⟩
        · rw [if_neg hlast] at hcons
          refine ⟨q :: p, j + 1, hp, fun r hr => ?_, hcons, by rw [recvCopy, if_neg hlast]⟩
          obtain rfl : q = r := Option.some.inj hr
          omega
      have hlen : (octetsFrom p' j').length = left := by
        rw [hrest, List.length_cons] at hleft
        exact Nat.succ.inj hleft
      obtain ⟨hcopy, hframe⟩ := ih (i := i + 1) (Function.update buf i (q.payload j)) hp' hj' hlen
      rw [hstep, hrest]
      constructor
      · rw [firstCells_cons]
        congr 1
        · show recvCopy left (i + 1) p' j' (Function.update buf i (q.payload j)) i = q.payload j
          rw [hframe i (.inl (Nat.lt_succ_self i)), Function.update_self]
        · rw [← hcopy]
          apply firstCells_congr
          intro k _
          congr 1
          omega
      · intro k hk
        rw [hframe k (by omega), Function.update_of_ne (by omega)]

theorem length_payload (p : List Pbuf) : (payload p).length = totLen p := by
  simp [payload, totLen, Pbuf.bytes, List.length_flatMap]

theorem netRecv_of_get {q queue : BufQueue} {p : List Pbuf} (h : netQGet q = (queue, some p))
    (buf : Nat → UInt8) :
    netRecv buf q =
      if totLen p > packetSize then
        { queue, buf, length := 0, timed := false, freed := [], kept := [p] }
      else
        { queue, buf := recvCopy (totLen p) 0 p 0 buf, length := totLen p, timed := true
          freed := [p], kept := [] } := by
  rw [netRecv, h]

theorem netRecv_of_none {q queue : BufQueue} (h : netQGet q = (queue, none)) (buf : Nat → UInt8) :
    netRecv buf q = { queue, buf, length := 0, timed := false, freed := [], kept := [] } := by
  rw [netRecv, h]

/-- **What is received is what was sent.** A call takes the next chain from its queue, and unless
that is longer than a packet, its octets are at the start of the buffer, the rest of the buffer is
as it was, and the chain is freed. -/
theorem netRecv_copies {q : BufQueue} {p : List Pbuf} {rest : List (List Pbuf)} (buf : Nat → UInt8)
    (hq : q.Valid)
    (hc : q.contents = p :: rest) (hp : Solid p) :
    (netRecv buf q).queue.Valid ∧ (netRecv buf q).queue.contents = rest ∧
      if totLen p ≤ packetSize then
        (netRecv buf q).length = totLen p ∧ firstCells (netRecv buf q).buf (totLen p) = payload p ∧
          (∀ k, totLen p ≤ k → (netRecv buf q).buf k = buf k) ∧ (netRecv buf q).freed = [p]
      else (netRecv buf q).length = 0 ∧ (netRecv buf q).buf = buf ∧ (netRecv buf q).freed = [] := by
  obtain ⟨hv, hhead, htail⟩ := netQGet_eq hq
  rw [hc] at hhead htail
  have hget : netQGet q = ((netQGet q).1, some p) := Prod.ext rfl hhead
  have hlen : (octetsFrom p 0).length = totLen p := by rw [octetsFrom_zero, length_payload]
  obtain ⟨hcopy, hframe⟩ :=
    recvCopy_eq (i := 0) buf hp (fun r hr => hp r (List.mem_of_head? hr)) hlen
  simp only [Nat.zero_add, octetsFrom_zero] at hcopy
  rw [netRecv_of_get hget]
  by_cases hbig : totLen p ≤ packetSize
  · rw [if_pos hbig, if_neg (Nat.not_lt.mpr hbig)]
    exact ⟨hv, htail, rfl, hcopy, fun k hk => hframe k (.inr (by omega)), rfl⟩
  · rw [if_neg hbig, if_pos (Nat.not_le.mp hbig)]
    exact ⟨hv, htail, rfl, rfl, rfl⟩

/-! ### Runs -/

/-- What happens to the queues, one call after the other: a chain comes to one of the callbacks, the
protocol takes one, `initClock` empties the event queue, and `netInit` starts anew. -/
inductive NetCall where
  | recvEventCallback (p : List Pbuf)
  | recvGeneralCallback (p : List Pbuf)
  | recvEvent
  | recvGeneral
  | emptyEventQ
  | init

/-- What a call does: the octets it returns, and the chains it frees. -/
structure NetResult where
  octets : List UInt8
  freed : List (List Pbuf)

/-- The body of the two callbacks. -/
def netRecvCallback (q : BufQueue) (p : List Pbuf) : BufQueue × List (List Pbuf) :=
  match netQPut q p with
  | (q, true) => (q, [])
  | (q, false) => (q, [p])

def netRecvEventCallback (netPath : NetPath) (p : List Pbuf) : NetPath × List (List Pbuf) :=
  let r := netRecvCallback netPath.eventQ p
  ({ netPath with eventQ := r.1 }, r.2)

def netRecvGeneralCallback (netPath : NetPath) (p : List Pbuf) : NetPath × List (List Pbuf) :=
  let r := netRecvCallback netPath.generalQ p
  ({ netPath with generalQ := r.1 }, r.2)

def netRecvEvent (netPath : NetPath) (buf : Nat → UInt8) : NetRecv := netRecv buf netPath.eventQ

def netRecvGeneral (netPath : NetPath) (buf : Nat → UInt8) : NetRecv := netRecv buf netPath.generalQ

def NetRecv.result (r : NetRecv) : NetResult := ⟨firstCells r.buf r.length, r.freed⟩

/-- A call, on the queues and `msgIbuf`. -/
def netStep (s : NetPath × (Nat → UInt8)) : NetCall → (NetPath × (Nat → UInt8)) × NetResult
  | .recvEventCallback p =>
    let r := netRecvEventCallback s.1 p
    ((r.1, s.2), ⟨[], r.2⟩)
  | .recvGeneralCallback p =>
    let r := netRecvGeneralCallback s.1 p
    ((r.1, s.2), ⟨[], r.2⟩)
  | .recvEvent =>
    let r := netRecvEvent s.1 s.2
    (({ s.1 with eventQ := r.queue }, r.buf), r.result)
  | .recvGeneral =>
    let r := netRecvGeneral s.1 s.2
    (({ s.1 with generalQ := r.queue }, r.buf), r.result)
  | .emptyEventQ =>
    let r := netQEmpty s.1.eventQ
    (({ s.1 with eventQ := r.1 }, s.2), ⟨[], r.2⟩)
  | .init => ((⟨netQInit s.1.eventQ, netQInit s.1.generalQ⟩, s.2), ⟨[], []⟩)

/-- Two lists of chains, which is what the queues are for. -/
structure Waiting where
  event : List (List Pbuf)
  general : List (List Pbuf)

/-- A chain arrives at a list with room for four. -/
def arrive (l : List (List Pbuf)) (p : List Pbuf) : List (List Pbuf) × NetResult :=
  if l.length < pbufQueueSize then (l ++ [p], ⟨[], []⟩) else (l, ⟨[], [p]⟩)

/-- The first chain is taken, for its octets. -/
def take : List (List Pbuf) → List (List Pbuf) × NetResult
  | [] => ([], ⟨[], []⟩)
  | p :: rest => (rest, if totLen p ≤ packetSize then ⟨payload p, [p]⟩ else ⟨[], []⟩)

def waitingStep (s : Waiting) : NetCall → Waiting × NetResult
  | .recvEventCallback p => ({ s with event := (arrive s.event p).1 }, (arrive s.event p).2)
  | .recvGeneralCallback p => ({ s with general := (arrive s.general p).1 }, (arrive s.general p).2)
  | .recvEvent => ({ s with event := (take s.event).1 }, (take s.event).2)
  | .recvGeneral => ({ s with general := (take s.general).1 }, (take s.general).2)
  | .emptyEventQ => ({ s with event := [] }, ⟨[], s.event⟩)
  | .init => (⟨[], []⟩, ⟨[], []⟩)

/-- The results of a run, in order. -/
def results {S : Type} (step : S → NetCall → S × NetResult) : S → List NetCall → List NetResult
  | _, [] => []
  | s, c :: cs => (step s c).2 :: results step (step s c).1 cs

/-- The chains a call brings. -/
def NetCall.arrived : NetCall → List (List Pbuf)
  | .recvEventCallback p => [p]
  | .recvGeneralCallback p => [p]
  | _ => []

/-- The queues stand for the lists, whose chains have no empty segments. -/
structure Stands (s : NetPath × (Nat → UInt8)) (w : Waiting) : Prop where
  event_valid : s.1.eventQ.Valid
  general_valid : s.1.generalQ.Valid
  event_eq : s.1.eventQ.contents = w.event
  general_eq : s.1.generalQ.contents = w.general
  event_solid : ∀ p ∈ w.event, Solid p
  general_solid : ∀ p ∈ w.general, Solid p

section Refinement
variable {q : BufQueue} {l : List (List Pbuf)}

theorem netRecvCallback_eq (hq : q.Valid) (hc : q.contents = l) (p : List Pbuf) :
    (netRecvCallback q p).1.Valid ∧ (netRecvCallback q p).1.contents = (arrive l p).1 ∧
      (⟨[], (netRecvCallback q p).2⟩ : NetResult) = (arrive l p).2 := by
  obtain ⟨hv, hok, hput⟩ := netQPut_eq hq p
  rw [hc] at hok hput
  rw [netRecvCallback, arrive]
  generalize netQPut q p = g at *
  obtain ⟨queue, ok⟩ := g
  by_cases hroom : l.length < pbufQueueSize
  · rw [if_pos hroom] at hput ⊢
    obtain rfl : ok = true := by simpa [hroom] using hok
    exact ⟨hv, hput, rfl⟩
  · rw [if_neg hroom] at hput ⊢
    obtain rfl : ok = false := by simpa [hroom] using hok
    exact ⟨hv, hput, rfl⟩

theorem netRecv_eq (hq : q.Valid) (hc : q.contents = l) (hl : ∀ p ∈ l, Solid p)
    (buf : Nat → UInt8) :
    (netRecv buf q).queue.Valid ∧ (netRecv buf q).queue.contents = (take l).1 ∧
      (netRecv buf q).result = (take l).2 := by
  cases l with
  | nil =>
    obtain ⟨hv, hhead, htail⟩ := netQGet_eq hq
    rw [hc] at hhead htail
    have hget : netQGet q = ((netQGet q).1, none) := Prod.ext rfl hhead
    rw [netRecv_of_none hget]
    exact ⟨hv, htail, rfl⟩
  | cons p rest =>
    obtain ⟨hv, hrest, hrecv⟩ := netRecv_copies buf hq hc (hl p List.mem_cons_self)
    refine ⟨hv, hrest, ?_⟩
    rw [take, NetRecv.result]
    by_cases hbig : totLen p ≤ packetSize
    · rw [if_pos hbig] at hrecv ⊢
      obtain ⟨hlen, hcopy, -, hfreed⟩ := hrecv
      rw [hlen, hcopy, hfreed]
    · rw [if_neg hbig] at hrecv ⊢
      obtain ⟨hlen, -, hfreed⟩ := hrecv
      rw [hlen, hfreed, firstCells_zero]

theorem mem_arrive {p r : List Pbuf} (h : r ∈ (arrive l p).1) : r ∈ l ∨ r = p := by
  rw [arrive] at h
  split at h
  · simpa using h
  · exact .inl h

theorem mem_take {r : List Pbuf} (h : r ∈ (take l).1) : r ∈ l := by
  cases l with
  | nil => exact h
  | cons p rest => exact List.mem_cons_of_mem _ h

/-- Every call does to the queues what it does to the lists. -/
theorem Stands.step {s : NetPath × (Nat → UInt8)} {w : Waiting} (h : Stands s w) (c : NetCall)
    (hc : ∀ p ∈ c.arrived, Solid p) :
    Stands (netStep s c).1 (waitingStep w c).1 ∧ (netStep s c).2 = (waitingStep w c).2 := by
  obtain ⟨hev, hgv, hee, hge, hes, hgs⟩ := h
  cases c with
  | recvEventCallback p =>
    obtain ⟨hv, heq, hres⟩ := netRecvCallback_eq hev hee p
    refine ⟨⟨hv, hgv, heq, hge, fun r hr => ?_, hgs⟩, hres⟩
    rcases mem_arrive hr with hr | rfl
    · exact hes r hr
    · exact hc r List.mem_cons_self
  | recvGeneralCallback p =>
    obtain ⟨hv, heq, hres⟩ := netRecvCallback_eq hgv hge p
    refine ⟨⟨hev, hv, hee, heq, hes, fun r hr => ?_⟩, hres⟩
    rcases mem_arrive hr with hr | rfl
    · exact hgs r hr
    · exact hc r List.mem_cons_self
  | recvEvent =>
    obtain ⟨hv, heq, hres⟩ := netRecv_eq hev hee hes s.2
    exact ⟨⟨hv, hgv, heq, hge, fun r hr => hes r (mem_take hr), hgs⟩, hres⟩
  | recvGeneral =>
    obtain ⟨hv, heq, hres⟩ := netRecv_eq hgv hge hgs s.2
    exact ⟨⟨hev, hv, hee, heq, hes, fun r hr => hgs r (mem_take hr)⟩, hres⟩
  | emptyEventQ =>
    obtain ⟨hv, hnil, hfreed⟩ := netQEmpty_eq hev
    refine ⟨⟨hv, hgv, hnil, hge, fun r hr => absurd hr List.not_mem_nil, hgs⟩, ?_⟩
    show (⟨[], (netQEmpty s.1.eventQ).2⟩ : NetResult) = ⟨[], w.event⟩
    rw [hfreed, hee]
  | init =>
    obtain ⟨hv, hnil⟩ := netQInit_eq s.1.eventQ
    obtain ⟨hv', hnil'⟩ := netQInit_eq s.1.generalQ
    exact ⟨⟨hv, hv', hnil, hnil', fun r hr => absurd hr List.not_mem_nil,
      fun r hr => absurd hr List.not_mem_nil⟩, rfl⟩

end Refinement

/-- The network before the first call. -/
def emptyNet : NetPath := ⟨⟨fun _ => [], 0, 0, 0⟩, ⟨fun _ => [], 0, 0, 0⟩⟩

theorem stands_empty (buf : Nat → UInt8) : Stands (emptyNet, buf) ⟨[], []⟩ :=
  ⟨(netQInit_eq emptyNet.eventQ).1, (netQInit_eq emptyNet.generalQ).1, rfl, rfl,
    fun _ hr => absurd hr List.not_mem_nil, fun _ hr => absurd hr List.not_mem_nil⟩

theorem Stands.run {s : NetPath × (Nat → UInt8)} {w : Waiting} (h : Stands s w) {cs : List NetCall}
    (hcs : ∀ p ∈ cs.flatMap NetCall.arrived, Solid p) :
    results netStep s cs = results waitingStep w cs ∧
      Stands (cs.foldl (fun s c => (netStep s c).1) s)
        (cs.foldl (fun w c => (waitingStep w c).1) w) := by
  induction cs generalizing s w with
  | nil => exact ⟨rfl, h⟩
  | cons c rest ih =>
    rw [List.flatMap_cons] at hcs
    obtain ⟨hnext, hres⟩ := h.step c fun p hp => hcs p (List.mem_append_left _ hp)
    obtain ⟨hrest, hlast⟩ := ih hnext fun p hp => hcs p (List.mem_append_right _ hp)
    exact ⟨by rw [results, results, hres, hrest], hlast⟩

/-- **The queues are lists.** Over any run the calls return what they would on two lists with room
for four chains each, taken in the order they came. -/
theorem net_results (buf : Nat → UInt8) (cs : List NetCall)
    (hcs : ∀ p ∈ cs.flatMap NetCall.arrived, Solid p) :
    results netStep (emptyNet, buf) cs = results waitingStep ⟨[], []⟩ cs :=
  ((stands_empty buf).run hcs).1

/-- Two octets that come and are taken, and a chain of 301 that comes and is not taken yet. -/
def shortAndLong : List NetCall :=
  [.recvEventCallback [⟨fun i => .ofNat i, 2⟩], .recvEventCallback [⟨fun _ => 0, 301⟩], .recvEvent]

theorem net_results_shortAndLong : results netStep (emptyNet, fun _ => 0) shortAndLong =
    [⟨[], []⟩, ⟨[], []⟩, ⟨[0, 1], [[⟨fun i => .ofNat i, 2⟩]]⟩] := by
  rw [net_results _ shortAndLong (by decide)]
  rfl

/-! ### The account -/

/-- The chains in the lists. -/
def Waiting.all (w : Waiting) : Multiset (List Pbuf) := ↑w.event + ↑w.general

/-- What a call is charged with: chains that are neither freed nor in a list after it. -/
def charge (w : Waiting) : NetCall → Multiset (List Pbuf)
  | .recvEvent => ↑(w.event.head?.toList.filter fun p => packetSize < totLen p)
  | .recvGeneral => ↑(w.general.head?.toList.filter fun p => packetSize < totLen p)
  | .init => w.all
  | _ => 0

theorem arrive_account (l : List (List Pbuf)) (p : List Pbuf) :
    (↑l + ↑[p] : Multiset (List Pbuf)) = ↑(arrive l p).2.freed + ↑(arrive l p).1 := by
  rw [arrive]
  split
  · show _ = (0 : Multiset (List Pbuf)) + ↑(l ++ [p])
    rw [zero_add, ← Multiset.coe_add]
  · exact add_comm ..

theorem take_account (l : List (List Pbuf)) :
    (↑l : Multiset (List Pbuf)) = ↑(take l).2.freed + ↑(take l).1 +
    ↑(l.head?.toList.filter fun p => packetSize < totLen p) := by
  cases l with
  | nil => rfl
  | cons p rest =>
    by_cases hbig : totLen p ≤ packetSize
    · have hfilter : [p].filter (fun p => packetSize < totLen p) = [] := by
        rw [List.filter_singleton, decide_eq_false (Nat.not_lt.mpr hbig)]
        rfl
      rw [take, if_pos hbig, List.head?_cons, Option.toList_some, hfilter]
      show (p ::ₘ ↑rest : Multiset _) = {p} + ↑rest + 0
      rw [add_zero, Multiset.singleton_add]
    · have hfilter : [p].filter (fun p => packetSize < totLen p) = [p] := by
        rw [List.filter_singleton, decide_eq_true (Nat.not_le.mp hbig)]
        rfl
      rw [take, if_neg hbig, List.head?_cons, Option.toList_some, hfilter]
      show (p ::ₘ ↑rest : Multiset _) = 0 + ↑rest + {p}
      rw [zero_add, add_comm, Multiset.singleton_add]

/-- Every chain a call has to do with is freed by it, in a list after it, or charged to it. -/
theorem waitingStep_account (w : Waiting) (c : NetCall) :
    w.all + ↑c.arrived = ↑(waitingStep w c).2.freed + (waitingStep w c).1.all + charge w c := by
  cases c with
  | recvEventCallback p =>
    have h := arrive_account w.event p
    simp only [Waiting.all, NetCall.arrived, waitingStep, charge, add_zero]
    rw [← add_assoc, ← h]
    abel
  | recvGeneralCallback p =>
    have h := arrive_account w.general p
    simp only [Waiting.all, NetCall.arrived, waitingStep, charge, add_zero]
    rw [add_assoc, h]
    abel
  | recvEvent =>
    have h := take_account w.event
    simp only [Waiting.all, NetCall.arrived, waitingStep, charge]
    nth_rewrite 1 [h]
    simp only [Multiset.coe_nil]
    abel
  | recvGeneral =>
    have h := take_account w.general
    simp only [Waiting.all, NetCall.arrived, waitingStep, charge]
    nth_rewrite 1 [h]
    simp only [Multiset.coe_nil]
    abel
  | emptyEventQ =>
    simp only [Waiting.all, NetCall.arrived, waitingStep, charge, Multiset.coe_nil]
    abel
  | init =>
    simp only [Waiting.all, NetCall.arrived, waitingStep, charge, Multiset.coe_nil]
    abel

/-- The chains that a run charges its calls with. -/
def charges : Waiting → List NetCall → Multiset (List Pbuf)
  | _, [] => 0
  | w, c :: cs => charge w c + charges (waitingStep w c).1 cs

theorem run_account (w : Waiting) (cs : List NetCall) :
    w.all + ↑(cs.flatMap NetCall.arrived) = ↑((results waitingStep w cs).flatMap NetResult.freed) +
      (cs.foldl (fun w c => (waitingStep w c).1) w).all + charges w cs := by
  induction cs generalizing w with
  | nil => simp [results, charges]
  | cons c rest ih =>
    rw [List.flatMap_cons, ← Multiset.coe_add, ← add_assoc, waitingStep_account, results,
      List.flatMap_cons, ← Multiset.coe_add, charges, List.foldl_cons]
    have hrest := ih (waitingStep w c).1
    have hswap : (↑(waitingStep w c).2.freed + (waitingStep w c).1.all + charge w c +
        ↑(rest.flatMap NetCall.arrived) : Multiset (List Pbuf)) = ↑(waitingStep w c).2.freed +
        ((waitingStep w c).1.all + ↑(rest.flatMap NetCall.arrived)) + charge w c := by abel
    rw [hswap, hrest]
    abel

/-- Without a new start only what is too long is charged. -/
theorem oversized_of_mem_charges {w : Waiting} {cs : List NetCall} (hcs : NetCall.init ∉ cs)
    {p : List Pbuf}
    (hp : p ∈ charges w cs) : packetSize < totLen p := by
  induction cs generalizing w with
  | nil => simp [charges] at hp
  | cons c rest ih =>
    rw [List.mem_cons, not_or] at hcs
    rw [charges, Multiset.mem_add] at hp
    rcases hp with hp | hp
    · cases c with
      | recvEvent => simpa [charge] using (List.mem_filter.mp hp).2
      | recvGeneral => simpa [charge] using (List.mem_filter.mp hp).2
      | init => exact absurd rfl hcs.1
      | _ => simp [charge] at hp
    · exact ih hcs.2 hp

/-- **The account of the chains.** After any run every chain that has come has been freed once, or
is in a queue once, or is one of the lost; and without a new start those are chains longer than a
packet. -/
theorem net_account (buf : Nat → UInt8) (cs : List NetCall)
    (hcs : ∀ p ∈ cs.flatMap NetCall.arrived, Solid p) :
    ∃ lost : Multiset (List Pbuf),
      ↑(cs.flatMap NetCall.arrived) =
        ↑((results netStep (emptyNet, buf) cs).flatMap NetResult.freed) +
        ↑(cs.foldl (fun s c => (netStep s c).1) (emptyNet, buf)).1.eventQ.contents +
        ↑(cs.foldl (fun s c => (netStep s c).1) (emptyNet, buf)).1.generalQ.contents + lost ∧
      (NetCall.init ∉ cs → ∀ p ∈ lost, packetSize < totLen p) := by
  obtain ⟨hres, hlast⟩ := (stands_empty buf).run hcs
  refine ⟨charges ⟨[], []⟩ cs, ?_, fun hinit p hp => oversized_of_mem_charges hinit hp⟩
  have hsum := run_account ⟨[], []⟩ cs
  rw [← hres, Waiting.all, Waiting.all, ← hlast.event_eq, ← hlast.general_eq] at hsum
  simpa [add_assoc] using hsum

theorem net_account_shortAndLong : ∃ lost : Multiset (List Pbuf),
    ↑(shortAndLong.flatMap NetCall.arrived) =
        ↑((results netStep (emptyNet, fun _ => 0) shortAndLong).flatMap NetResult.freed) +
        ↑(shortAndLong.foldl (fun s c => (netStep s c).1)
          (emptyNet, fun _ => 0)).1.eventQ.contents +
        ↑(shortAndLong.foldl (fun s c => (netStep s c).1)
          (emptyNet, fun _ => 0)).1.generalQ.contents + lost ∧
      (NetCall.init ∉ shortAndLong → ∀ p ∈ lost, packetSize < totLen p) :=
  net_account _ shortAndLong (by decide)

end Stm32F4.Ptp
