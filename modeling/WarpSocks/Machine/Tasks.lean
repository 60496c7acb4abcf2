import Mathlib.Algebra.Order.BigOperators.Group.List
import Mathlib.Algebra.Order.Ring.Nat

/-!
# Tasks

Any number of tasks, each known by its position in a list of states.  A change of one task or a new task leaves
the others as they were, and moves a sum over all tasks by its own share (`sum_map_set`).
-/

namespace Machine

variable {φ : Type} {tasks : List φ} {i j : Nat} {x y : φ}

theorem getElem?_set_cases (h : (tasks.set i x)[j]? = some y) : j = i ∧ y = x ∨ j ≠ i ∧ tasks[j]? = some y := by
  rw [List.getElem?_set] at h
  by_cases hij : i = j
  · rw [if_pos hij] at h
    split at h
    · cases h
      exact .inl ⟨hij.symm, rfl⟩
    · nomatch h
  · rw [if_neg hij] at h
    exact .inr ⟨fun he => hij he.symm, h⟩

theorem getElem?_concat_cases (h : (tasks ++ [x])[j]? = some y) : j = tasks.length ∧ y = x ∨ tasks[j]? = some y := by
  rw [List.getElem?_append] at h
  split at h
  · exact .inr h
  · rename_i hlt
    rw [List.getElem?_singleton] at h
    split at h
    · cases h
      exact .inl ⟨by omega, rfl⟩
    · nomatch h

theorem set_self (h : tasks[i]? = some x) : tasks.set i x = tasks := by
  obtain ⟨hi, rfl⟩ := List.getElem?_eq_some_iff.1 h
  exact List.set_getElem_self hi

/-- The share of the task that changes is replaced in the sum. -/
theorem sum_map_set (f : φ → Nat) (h : tasks[i]? = some x) (y : φ) :
    ((tasks.set i y).map f).sum + f x = (tasks.map f).sum + f y := by
  induction tasks generalizing i with
  | nil => nomatch h
  | cons t tasks ih =>
    cases i with
    | zero =>
      cases h
      simp only [List.set_cons_zero, List.map_cons, List.sum_cons]
      omega
    | succ i =>
      have := ih (List.getElem?_cons_succ ▸ h)
      simp only [List.set_cons_succ, List.map_cons, List.sum_cons]
      omega

/-- What the task that changes gives up leaves what all tasks hold together. -/
theorem flatMap_set_perm {β : Type} {g : φ → List β} {given : List β} (h : tasks[i]? = some x)
    (hy : g x = given ++ g y) :
    (tasks.flatMap g).Perm (given ++ (tasks.set i y).flatMap g) := by
  induction tasks generalizing i with
  | nil => nomatch h
  | cons t tasks ih =>
    cases i with
    | zero =>
      cases h
      rw [List.set_cons_zero, List.flatMap_cons, List.flatMap_cons, hy, List.append_assoc]
    | succ i =>
      rw [List.set_cons_succ, List.flatMap_cons, List.flatMap_cons]
      refine ((ih (List.getElem?_cons_succ ▸ h)).append_left (g t)).trans ?_
      rw [← List.append_assoc, ← List.append_assoc]
      exact List.perm_append_comm.append_right _

theorem le_sum_map (f : φ → Nat) (h : tasks[i]? = some x) : f x ≤ (tasks.map f).sum :=
  List.le_sum_of_mem (List.mem_map_of_mem (List.mem_of_getElem? h))

theorem sum_map_eq_zero {f : φ → Nat} (h : ∀ x ∈ tasks, f x = 0) : (tasks.map f).sum = 0 := by
  apply List.sum_eq_zero
  intro y hy
  obtain ⟨x, hx, rfl⟩ := List.mem_map.1 hy
  exact h x hx

theorem sum_map_concat (f : φ → Nat) (x : φ) : ((tasks ++ [x]).map f).sum = (tasks.map f).sum + f x := by
  simp [List.sum_append]

end Machine
