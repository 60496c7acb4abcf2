/-!
# Computations with checked indices

A fallible computation over a buffer that is read by position: it returns a value or an error, or it panics at an
index behind the end of the buffer, or where the check of an operation fails (`require`).  A computation is safe
if it does not panic, and sequencing safe steps is safe (`safe_bind`).  What a positioned read returns is stated
for a buffer split at the position (`index_append`, `slice_append`).
-/

namespace Machine

/-- A fallible computation that may panic, which is `none`. -/
abbrev Checked (ε α : Type) := ExceptT ε Option α

namespace Checked

variable {ε α β : Type}

/-- The outcome of a failed check of an index. -/
def panic : Checked ε α := (none : Option (Except ε α))

/-- A computation in which nothing is checked. -/
def ofExcept (x : Except ε α) : Checked ε α := (some x : Option (Except ε α))

/-- The check of an operation. -/
def require (p : Prop) [Decidable p] : Checked ε Unit := if p then pure () else panic

/-- The computation does not panic. -/
def Safe (x : Checked ε α) : Prop := x ≠ panic

/-- `xs[i]`. -/
def index (xs : List α) (i : Nat) : Checked ε α :=
  match xs[i]? with
  | some a => pure a
  | none => panic

/-- `xs[i..i + n]`. -/
def slice (xs : List α) (i n : Nat) : Checked ε { ys : List α // ys.length = n } :=
  if h : i + n ≤ xs.length then pure ⟨(xs.drop i).take n, by simp only [List.length_take, List.length_drop]; omega⟩
  else panic

/-- An optional value, with the error for its absence. -/
def ofOption (e : ε) : Option α → Checked ε α
  | some a => pure a
  | none => throw e

@[simp] theorem ofOption_none (e : ε) : (ofOption e none : Checked ε α) = throw e := rfl

@[simp] theorem pure_bind (a : α) (f : α → Checked ε β) : (pure a >>= f : Checked ε β) = f a := rfl

/-- A check that holds is no step. -/
theorem require_bind {p : Prop} [Decidable p] (h : p) (f : Unit → Checked ε β) :
    (require p >>= f : Checked ε β) = f () := by
  rw [require, if_pos h, pure_bind]

theorem safe_pure (a : α) : Safe (pure a : Checked ε α) := fun h => Option.some_ne_none _ h

theorem safe_throw (e : ε) : Safe (throw e : Checked ε α) := fun h => Option.some_ne_none _ h

theorem safe_ofExcept (x : Except ε α) : Safe (ofExcept x) := fun h => Option.some_ne_none _ h

theorem safe_ofOption (e : ε) (a : Option α) : Safe (ofOption e a) := by
  cases a with
  | none => exact safe_throw e
  | some a => exact safe_pure a

/-- A safe computation returns or fails. -/
theorem Safe.cases {x : Checked ε α} (h : Safe x) : (∃ a, x = pure a) ∨ ∃ e, x = throw e := by
  match x, h with
  | some (.ok a), _ => exact .inl ⟨a, rfl⟩
  | some (.error e), _ => exact .inr ⟨e, rfl⟩
  | none, h => exact absurd rfl h

/-- Safe steps in sequence are safe. -/
theorem safe_bind {x : Checked ε α} {f : α → Checked ε β} (hx : Safe x) (hf : ∀ a, x = pure a → Safe (f a)) :
    Safe (x >>= f) := by
  obtain ⟨a, rfl⟩ | ⟨e, rfl⟩ := hx.cases
  · exact hf a rfl
  · exact safe_throw e

theorem index_of_lt {xs : List α} {i : Nat} (h : i < xs.length) : (index xs i : Checked ε α) = pure xs[i] := by
  unfold index
  rw [List.getElem?_eq_getElem h]

theorem index_getD {xs : List α} {i : Nat} (h : i < xs.length) (d : α) :
    (index xs i : Checked ε α) = pure (xs.getD i d) := by
  rw [index_of_lt h, List.getD_eq_getElem?_getD, List.getElem?_eq_getElem h, Option.getD_some]

theorem safe_index {xs : List α} {i : Nat} (h : i < xs.length) : Safe (index xs i : Checked ε α) := by
  rw [index_of_lt h]
  exact safe_pure _

theorem slice_of_le {xs : List α} {i n : Nat} (h : i + n ≤ xs.length) :
    ∃ hlen, (slice xs i n : Checked ε { ys : List α // ys.length = n }) = pure ⟨(xs.drop i).take n, hlen⟩ :=
  ⟨_, dif_pos h⟩

theorem safe_slice {xs : List α} {i n : Nat} (h : i + n ≤ xs.length) :
    Safe (slice xs i n : Checked ε { ys : List α // ys.length = n }) := by
  unfold slice
  rw [dif_pos h]
  exact safe_pure _

/-- The `i`-th entry behind a front. -/
theorem index_append (front xs : List α) {i : Nat} (h : i < xs.length) :
    (index (front ++ xs) (front.length + i) : Checked ε α) = pure xs[i] := by
  rw [index_of_lt (by rw [List.length_append]; omega), List.getElem_append_right (by omega)]
  simp only [Nat.add_sub_cancel_left]

/-- The entries between a front and a back. -/
theorem slice_append (front back : List α) {ys : List α} {n : Nat} (h : ys.length = n) :
    (slice (front ++ (ys ++ back)) front.length n : Checked ε { zs : List α // zs.length = n }) = pure ⟨ys, h⟩ := by
  subst h
  unfold slice
  rw [dif_pos (by simp only [List.length_append]; omega)]
  simp only [List.drop_left, List.take_left]

end Checked

end Machine
