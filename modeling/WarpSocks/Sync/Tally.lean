import Mathlib.Algebra.BigOperators.Group.List.Basic
import Mathlib.Algebra.Order.Ring.Nat

/-!
# Histories cut into windows

Contributions come one after the other, and from time to time a window is closed that shows a value of those that
have come since the last one.  No contribution is in two windows and none before the last cut is in no window
(`Cut`), whatever the value is.
-/

namespace Sync

variable {α β : Type} {f : List α → β} {history : List α} {shown : List β} {cut cut' : Nat}

/-- The windows show the values of consecutive parts that make up the first `cut` contributions. -/
def Cut (f : List α → β) (history : List α) (shown : List β) (cut : Nat) : Prop :=
  ∃ parts : List (List α), parts.flatten = history.take cut ∧ shown = parts.map f

theorem cut_nil : Cut f [] [] 0 := ⟨[], rfl, rfl⟩

/-- A new contribution is behind the last cut. -/
theorem Cut.push (h : Cut f history shown cut) (hle : cut ≤ history.length) (x : α) :
    Cut f (history ++ [x]) shown cut := by
  obtain ⟨parts, hparts, hshown⟩ := h
  exact ⟨parts, by rw [List.take_append_of_le_length hle, hparts], hshown⟩

/-- A window is closed. -/
theorem Cut.advance (h : Cut f history shown cut) (hle : cut ≤ cut') :
    Cut f history (shown ++ [f ((history.take cut').drop cut)]) cut' := by
  obtain ⟨parts, hparts, rfl⟩ := h
  refine ⟨parts ++ [(history.take cut').drop cut], ?_, by rw [List.map_append, List.map_singleton]⟩
  have htake : history.take cut = (history.take cut').take cut := by rw [List.take_take, Nat.min_eq_left hle]
  rw [List.flatten_append, List.flatten_singleton, hparts, htake, List.take_append_drop]

/-- What a sum grows by between two cuts. -/
theorem sum_take_sub {history : List Nat} (hle : cut ≤ cut') :
    (history.take cut').sum - (history.take cut).sum = ((history.take cut').drop cut).sum := by
  have h := congrArg List.sum (List.take_append_drop cut (history.take cut'))
  rw [List.sum_append, List.take_take, Nat.min_eq_left hle] at h
  omega

theorem sum_take_le (history : List Nat) (cut : Nat) : (history.take cut).sum ≤ history.sum := by
  have h := congrArg List.sum (List.take_append_drop cut history)
  rw [List.sum_append] at h
  omega

/-- The greatest of the values, or zero. -/
def maxOf (values : List Nat) : Nat := values.foldr max 0

theorem maxOf_concat (values : List Nat) (v : Nat) : maxOf (values ++ [v]) = max (maxOf values) v := by
  induction values with
  | nil => exact (Nat.max_zero v).trans (Nat.zero_max v).symm
  | cons x values ih =>
    show max x (maxOf (values ++ [v])) = max (max x (maxOf values)) v
    rw [ih, Nat.max_assoc]

end Sync
