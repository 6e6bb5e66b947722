import Stm32F4.Lib.Run

/-! Double buffering, in its own terms.

A producer fills one buffer while a consumer owns the other. `out` is what the
consumer has taken so far, `user` what it has been handed and not yet taken, and
`filling` what the producer has put in the buffer it fills. Four moves are
possible: the producer stores a value, the two buffers are exchanged, the
consumer takes what it was handed, and nothing at all. The history
`out ++ user ++ filling` only ever grows by stored values, unless the buffers are
exchanged while `user` still holds something (`Lossless`). -/
namespace Stm32F4.Lib

variable {β : Type*}

/-- A pair of buffers and what the consumer took from them. -/
structure PingPong (β : Type*) where
  out : List β
  user : List β
  filling : List β

namespace PingPong

/-- One move of the producer or the consumer. -/
inductive Move (β : Type*) where
  | store (b : β)
  | exchange
  | take
  | stay

def apply (s : PingPong β) : Move β → PingPong β
  | .store b => { s with filling := s.filling ++ [b] }
  | .exchange => { s with user := s.filling, filling := [] }
  | .take => { s with out := s.out ++ s.user, user := [] }
  | .stay => s

/-- Everything taken, handed over or being filled, in that order. -/
def history (s : PingPong β) : List β := s.out ++ s.user ++ s.filling

/-- What a move adds to the history. -/
def Move.stored : Move β → List β
  | .store b => [b]
  | _ => []

/-- A move drops nothing unless it exchanges the buffers over pending values. -/
def Lossless (s : PingPong β) : Move β → Prop
  | .exchange => s.user = []
  | _ => True

/-- A lossless move appends to the history exactly what it stores. -/
theorem history_apply (s : PingPong β) (m : Move β) (h : s.Lossless m) :
    (s.apply m).history = s.history ++ m.stored := by
  cases m with
  | store b => simp [apply, history, Move.stored]
  | exchange =>
    have hu : s.user = [] := h
    simp [apply, history, Move.stored, hu]
  | take => simp [apply, history, Move.stored]
  | stay => simp [apply, Move.stored]

/-- Along moves that drop nothing the history grows by exactly what they store. -/
theorem history_run {s : PingPong β} {ms : List (Move β)} (h : Along apply Lossless s ms) :
    (ms.foldl apply s).history = s.history ++ ms.flatMap Move.stored := by
  induction ms generalizing s with
  | nil => simp
  | cons m rest ih =>
    rw [List.foldl_cons, ih h.2, history_apply s m h.1]
    simp

end PingPong

end Stm32F4.Lib
