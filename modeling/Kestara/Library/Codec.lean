import Mathlib

/-!
# Writers and readers of byte strings

A writer appends to a byte string or fails; a reader takes bytes from the front of one or
fails. `Codes limit w r a` says that whatever `w` appends, as long as it stays below a
limit, is read by `r` as the value `a`.
-/
namespace Codec

abbrev Writer (ε α : Type) := StateT (List UInt8) (Except ε) α

abbrev Reader (ε α : Type) := StateT (List UInt8) (Except ε) α

variable {ε δ α β : Type}

def write (bytes : List UInt8) : Writer ε Unit := fun out => .ok ((),out ++ bytes)

/-- The next `n` bytes of an array; `outside` is the error of an index beyond its end. -/
def fetch (outside : δ) (n : ℕ) : Reader δ (List UInt8) := fun input =>
  if n ≤ input.length then .ok (input.take n,input.drop n) else .error outside

def remaining : Reader δ ℕ := fun input => .ok (input.length,input)

/-- One value after another. -/
def readMany (r : Reader δ α) : ℕ → Reader δ (List α)
  | 0 => pure []
  | n+1 => do
    let a ← r
    let rest ← readMany r n
    return a :: rest

/-- Taken from the front of any input, the bytes give the value and leave the rest. -/
def Reads (r : Reader δ α) (bytes : List UInt8) (a : α) : Prop :=
  ∀ rest, r (bytes ++ rest) = .ok (a,rest)

def Codes (limit : ℕ) (w : Writer ε Unit) (r : Reader δ α) (a : α) : Prop :=
  ∀ out out', w out = .ok ((),out') →
    ∃ bytes, out' = out ++ bytes ∧ (bytes.length < limit → Reads r bytes a)

lemma reader_bind {r : Reader δ α} {k : α → Reader δ β} {input rest : List UInt8} {a : α}
    (h : r input = .ok (a,rest)) : (r >>= k) input = k a rest := by
  change (r input >>= fun x => k x.1 x.2) = _
  rw [h]
  rfl

lemma writer_bind {w w' : Writer ε Unit} {out out' : List UInt8}
    (h : (w >>= fun _ => w') out = .ok ((),out')) :
    ∃ mid, w out = .ok ((),mid) ∧ w' mid = .ok ((),out') := by
  change (w out >>= fun x => w' x.2) = _ at h
  cases hw : w out with
  | error e =>
    rw [hw] at h
    cases h
  | ok x =>
    rw [hw] at h
    exact ⟨x.2,rfl,h⟩

theorem reads_pure (a : α) : Reads (pure a : Reader δ α) [] a := fun _ => rfl

theorem Reads.bind {r : Reader δ α} {k : α → Reader δ β} {xs ys : List UInt8} {a : α} {b : β}
    (h : Reads r xs a) (hk : Reads (k a) ys b) : Reads (r >>= k) (xs ++ ys) b := by
  intro rest
  rw [List.append_assoc,reader_bind (h (ys ++ rest)),hk rest]

theorem reads_fetch {outside : δ} {n : ℕ} {bytes : List UInt8} (h : bytes.length = n) :
    Reads (fetch outside n) bytes bytes := by
  subst h
  intro rest
  simp [fetch]

/-- A check that there are `n` more bytes, which fails with `e`. -/
def Checks (check : Reader δ Unit) (n : ℕ) (e : δ) : Prop :=
  ∀ input, check input = if n ≤ input.length then .ok ((),input) else .error e

/-- Bytes that have been checked to be there are taken. -/
theorem Checks.reads {check : Reader δ Unit} {n : ℕ} {e outside : δ} (hc : Checks check n e)
    (k : List UInt8 → α) {bytes : List UInt8} (h : bytes.length = n) :
    Reads (do check; return k (← fetch outside n)) bytes (k bytes) := by
  intro rest
  have hcheck : check (bytes ++ rest) = .ok ((),bytes ++ rest) := by
    rw [hc,if_pos]
    rw [List.length_append]
    omega
  rw [reader_bind hcheck,reader_bind (reads_fetch h rest)]
  rfl

namespace Codes
variable {limit : ℕ} {w w' : Writer ε Unit} {r : Reader δ α} {a : α}

theorem of_write {bytes : List UInt8} (h : bytes.length < limit → Reads r bytes a) :
    Codes limit (write bytes : Writer ε Unit) r a := by
  intro out out' hw
  cases hw
  exact ⟨bytes,rfl,h⟩

/-- What is written in sequence is read in sequence. -/
theorem bind {k : α → Reader δ β} {b : β} (h : Codes limit w r a)
    (hk : Codes limit w' (k a) b) : Codes limit (w >>= fun _ => w') (r >>= k) b := by
  intro out out' hw
  obtain ⟨mid,h₁,h₂⟩ := writer_bind hw
  obtain ⟨xs,rfl,hx⟩ := h out mid h₁
  obtain ⟨ys,rfl,hy⟩ := hk _ out' h₂
  refine ⟨xs ++ ys,by rw [List.append_assoc],?_⟩
  intro hl
  rw [List.length_append] at hl
  exact (hx (by omega)).bind (hy (by omega))

/-- After the last value nothing more is read. -/
theorem finish {k : α → Reader δ β} {b : β} (h : Codes limit w r a) (hk : Reads (k a) [] b) :
    Codes limit w (r >>= k) b := by
  intro out out' hw
  obtain ⟨xs,rfl,hx⟩ := h out out' hw
  refine ⟨xs,rfl,?_⟩
  intro hl
  rw [← List.append_nil xs]
  exact (hx hl).bind hk

/-- The last value is only packed with the others. -/
theorem last {f : α → β} (h : Codes limit w r a) :
    Codes limit w (r >>= fun x => pure (f x)) (f a) := h.finish (reads_pure (f a))

theorem done (a : α) : Codes limit (pure () : Writer ε Unit) (pure a : Reader δ α) a := by
  intro out out' hw
  cases hw
  exact ⟨[],by simp,fun _ => reads_pure a⟩

theorem many {γ : Type} {write : γ → Writer ε Unit} {r : Reader δ α} {f : γ → α}
    (h : ∀ x, Codes limit (write x) r (f x)) (xs : List γ) :
    Codes limit (xs.forM write) (readMany r xs.length) (xs.map f) := by
  induction xs with
  | nil => exact done []
  | cons x xs ih => exact (h x).bind ih.last

/-- A whole output below the limit is read to its end. -/
theorem read_all {bytes : List UInt8} (h : Codes limit w r a) (hw : w [] = .ok ((),bytes))
    (hl : bytes.length < limit) : r bytes = .ok (a,[]) := by
  obtain ⟨xs,hb,hx⟩ := h [] bytes hw
  rw [List.nil_append] at hb
  subst hb
  have hr := hx hl []
  rwa [List.append_nil] at hr

end Codes

end Codec
