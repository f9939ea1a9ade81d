import TuyaOpen.Lib.Mealy

/-!
# Bounded queues

Queues of fixed capacity: a byte pipe, and a queue that is open at both ends.
-/

/-!
## Bounded first-in first-out queues

The abstract behaviour of a byte pipe of fixed capacity: a write appends the
longest prefix that fits, reads and discards take from the front.
-/

/-- A queue together with the proof that it respects its capacity. -/
@[ext] structure Fifo (α : Type*) (cap : ℕ) where
  items : List α
  length_le : items.length ≤ cap

inductive FifoOp (α : Type*)
  | write (data : List α)
  | read (n : ℕ)
  | peek (n : ℕ)
  | discard (n : ℕ)
  | reset

namespace Fifo

variable {α : Type*} {cap : ℕ}

def empty : Fifo α cap := ⟨[], Nat.zero_le _⟩

def write (q : Fifo α cap) (data : List α) : Fifo α cap where
  items := q.items ++ data.take (cap - q.items.length)
  length_le := by
    have := q.length_le
    simp only [List.length_append, List.length_take]
    omega

def drop (q : Fifo α cap) (n : ℕ) : Fifo α cap where
  items := q.items.drop n
  length_le := by
    have := q.length_le
    simp only [List.length_drop]
    omega

/-- A call gives back the elements it hands out and the number it processed. -/
def machine : Mealy (Fifo α cap) (FifoOp α) (List α × ℕ) where
  step q
    | .write data => (q.write data, [], min (cap - q.items.length) data.length)
    | .read n => (q.drop n, q.items.take n, min q.items.length n)
    | .peek n => (q, q.items.take n, min q.items.length n)
    | .discard n => (q.drop n, [], min q.items.length n)
    | .reset => (empty, [], 0)

end Fifo

/-!
## Bounded double-ended queues

The abstract behaviour of a queue of fixed capacity that takes elements at both
ends, gives them out at the front and shows any slice.  A reply says whether
the call succeeded and which elements it hands out.
-/

/-- A list together with the proof that it respects its capacity. -/
structure Deque (α : Type*) (cap : ℕ) where
  items : List α
  length_le : items.length ≤ cap

inductive DequeOp (α : Type*)
  | pushBack (x : α)
  | pushFront (x : α)
  | pop
  | peek
  | slice (start num : ℕ)
  | drop (num : ℕ)
  | clear
  | refuse

namespace Deque

variable {α : Type*} {cap : ℕ}

def empty : Deque α cap := ⟨[], Nat.zero_le cap⟩

def push (q : Deque α cap) (front : Bool) (x : α) (h : q.items.length < cap) : Deque α cap where
  items := if front then x :: q.items else q.items ++ [x]
  length_le := by
    split <;> simp only [List.length_cons, List.length_append, List.length_nil] <;> omega

def drop (q : Deque α cap) (n : ℕ) : Deque α cap where
  items := q.items.drop n
  length_le := by
    have hle := q.length_le
    rw [List.length_drop]
    omega

/-- A push into a full queue changes nothing. -/
def tryPush (q : Deque α cap) (front : Bool) (x : α) : Deque α cap × Bool :=
  if h : q.items.length < cap then (q.push front x h, true) else (q, false)

def machine : Mealy (Deque α cap) (DequeOp α) (Bool × List α) where
  step q
    | .pushBack x => ((q.tryPush false x).1, (q.tryPush false x).2, [])
    | .pushFront x => ((q.tryPush true x).1, (q.tryPush true x).2, [])
    | .pop => (q.drop 1, decide (1 ≤ q.items.length), q.items.take 1)
    | .peek => (q, decide (1 ≤ q.items.length), q.items.take 1)
    | .slice start num =>
      (q, decide (start + num ≤ q.items.length), (q.items.drop start).take num)
    | .drop num => (q.drop num, decide (num ≤ q.items.length), [])
    | .clear => (empty, true, [])
    | .refuse => (q, false, [])

end Deque
