import Mathlib.Data.List.Nodup

/-!
# First occurrences

`List.eraseDups` keeps the first occurrence of each element.  It has no element twice (`nodup_eraseDups`), and it
does not matter whether a list is filtered before or after (`eraseDups_filter`).
-/

namespace Table

variable {α : Type} [DecidableEq α]

private theorem length_filter_ne_lt (x : α) (xs : List α) :
    (xs.filter fun y => !y == x).length < (x :: xs).length := by
  have := List.length_filter_le (fun y => !y == x) xs
  rw [List.length_cons]
  omega

theorem eraseDups_filter (p : α → Bool) (xs : List α) : (xs.filter p).eraseDups = xs.eraseDups.filter p := by
  induction hn : xs.length using Nat.strongRecOn generalizing xs with
  | ind n ih =>
    cases xs with
    | nil => rfl
    | cons x xs =>
      have hlt : (xs.filter fun y => !y == x).length < n := hn ▸ length_filter_ne_lt x xs
      rw [List.eraseDups_cons]
      cases hx : p x with
      | true =>
        rw [List.filter_cons_of_pos hx, List.filter_cons_of_pos hx, List.eraseDups_cons, ← ih _ hlt _ rfl,
          List.filter_filter, List.filter_filter]
        simp only [Bool.and_comm]
      | false =>
        have hdrop : (xs.filter fun y => !y == x).filter p = xs.filter p := by
          rw [List.filter_filter]
          refine List.filter_congr fun y _ => ?_
          by_cases hy : y = x
          · simp [hy, hx]
          · simp [hy]
        rw [List.filter_cons_of_neg (by simp [hx]), List.filter_cons_of_neg (by simp [hx]), ← ih _ hlt _ rfl, hdrop]

theorem nodup_eraseDups (xs : List α) : xs.eraseDups.Nodup := by
  induction hn : xs.length using Nat.strongRecOn generalizing xs with
  | ind n ih =>
    cases xs with
    | nil => exact List.nodup_nil
    | cons x xs =>
      have hlt : (xs.filter fun y => !y == x).length < n := hn ▸ length_filter_ne_lt x xs
      rw [List.eraseDups_cons, List.nodup_cons]
      refine ⟨?_, ih _ hlt _ rfl⟩
      rw [List.mem_eraseDups, List.mem_filter]
      simp

end Table
