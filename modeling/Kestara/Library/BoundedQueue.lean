import Mathlib

/-! Closable queues of bounded capacity. A conflated queue keeps the newest element only. -/

/-- `capacity = none` is a conflated queue, which always has room. -/
structure BoundedQueue (α : Type*) where
  capacity : Option ℕ
  buffer : List α := []
  closed : Bool := false
  deriving DecidableEq

namespace BoundedQueue
variable {α : Type*}

def hasRoom (q : BoundedQueue α) : Bool :=
  match q.capacity with
  | none => true
  | some n => decide (q.buffer.length < n)

/-- Put an element into a queue that has room for it. -/
def put (q : BoundedQueue α) (x : α) : BoundedQueue α :=
  match q.capacity with
  | none => { q with buffer := [x] }
  | some _ => { q with buffer := q.buffer ++ [x] }

/-- Closing stops new elements; what is buffered can still be taken. -/
def close (q : BoundedQueue α) : BoundedQueue α := { q with closed := true }

def take (q : BoundedQueue α) : Option (α × BoundedQueue α) :=
  match q.buffer with
  | [] => none
  | x :: xs => some (x,{ q with buffer := xs })

@[simp] theorem put_closed (q : BoundedQueue α) (x : α) : (q.put x).closed = q.closed := by
  unfold put
  split <;> rfl

@[simp] theorem put_capacity (q : BoundedQueue α) (x : α) : (q.put x).capacity = q.capacity := by
  unfold put
  split <;> simp_all

theorem mem_put {q : BoundedQueue α} {x y : α} (h : y ∈ (q.put x).buffer) :
    y = x ∨ y ∈ q.buffer := by
  unfold put at h
  split at h
  · exact .inl (by simpa using h)
  · exact (List.mem_append.mp h).symm.imp_left (by simp)

/-- Only a conflated queue loses an element by a put. -/
theorem mem_put_of_mem {q : BoundedQueue α} {x y : α} (hc : q.capacity ≠ none)
    (h : y ∈ q.buffer) : y ∈ (q.put x).buffer := by
  unfold put
  split
  · contradiction
  · exact List.mem_append_left _ h

@[simp] theorem close_closed (q : BoundedQueue α) : q.close.closed = true := rfl

@[simp] theorem close_capacity (q : BoundedQueue α) : q.close.capacity = q.capacity := rfl

@[simp] theorem close_hasRoom (q : BoundedQueue α) : q.close.hasRoom = q.hasRoom := rfl

/-- Taking an element never uses up room. -/
theorem hasRoom_of_tail {q : BoundedQueue α} {x : α} {xs : List α} (hb : q.buffer = x :: xs)
    (h : q.hasRoom = true) : ({ q with buffer := xs } : BoundedQueue α).hasRoom = true := by
  unfold hasRoom at *
  cases hc : q.capacity with
  | none => rfl
  | some n =>
    simp only [hc,hb,List.length_cons,decide_eq_true_eq] at h ⊢
    omega

/-- A full queue of positive capacity has something to take. -/
theorem take_isSome_of_full {q : BoundedQueue α} (hc : ∀ n, q.capacity = some n → 0 < n)
    (h : q.hasRoom = false) : q.take.isSome = true := by
  cases hb : q.buffer with
  | cons x xs => simp [take,hb]
  | nil =>
    cases hq : q.capacity with
    | none => simp [hasRoom,hq] at h
    | some n =>
      have := hc n hq
      simp [hasRoom,hq,hb] at h
      omega

end BoundedQueue
