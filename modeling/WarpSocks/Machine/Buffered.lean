import Mathlib.Data.List.Perm.Basic
import WarpSocks.Machine.Tasks

/-!
# Jobs with a bound on how many run

Jobs wait in order and run as long as there is room for them; those that run may finish in any order.  The jobs
are started in the order they waited in, never more of them run than there is room for, and each started job runs
or has finished once (`Buffered.Orderly`).  When nothing runs behind a `fill`, nothing waits either.
-/

namespace Machine

/-- Jobs `α` of which some run, each in a state `σ`, and some have finished with a result `β`. -/
structure Buffered (α σ β : Type) where
  waiting : List α
  running : List (α × σ)
  /-- The jobs that have been started, in the order of their starts. -/
  started : List α
  /-- The jobs that have finished, in the order in which they did. -/
  completed : List (α × β)

namespace Buffered

variable {α σ β : Type}

/-- All jobs wait. -/
def new (jobs : List α) : Buffered α σ β := ⟨jobs, [], [], []⟩

/-- Starts jobs, each in its first state, until `n` of them run or none waits. -/
def fill (n : Nat) (first : α → σ) (b : Buffered α σ β) : Buffered α σ β :=
  let room := n - b.running.length
  { b with
    waiting := b.waiting.drop room
    running := b.running ++ (b.waiting.take room).map fun job => (job, first job)
    started := b.started ++ b.waiting.take room }

/-- The `i`-th running job goes on in another state. -/
def advance (i : Nat) (job : α) (state : σ) (b : Buffered α σ β) : Buffered α σ β :=
  { b with running := b.running.set i (job, state) }

/-- The `i`-th running job finishes. -/
def finish (i : Nat) (job : α) (result : β) (b : Buffered α σ β) : Buffered α σ β :=
  { b with running := b.running.eraseIdx i, completed := b.completed ++ [(job, result)] }

/-- The jobs start in order, at most `n` run, and each started one runs or has finished. -/
structure Orderly (n : Nat) (jobs : List α) (b : Buffered α σ β) : Prop where
  order : b.started ++ b.waiting = jobs
  bound : b.running.length ≤ n
  once : b.started.Perm (b.completed.map Prod.fst ++ b.running.map Prod.fst)

variable {n : Nat} {jobs : List α} {b : Buffered α σ β} {i : Nat} {job : α} {state : σ}

theorem orderly_new (n : Nat) (jobs : List α) : Orderly n jobs (new jobs : Buffered α σ β) :=
  ⟨rfl, Nat.zero_le n, .refl _⟩

theorem Orderly.fill (h : Orderly n jobs b) (first : α → σ) : Orderly n jobs (b.fill n first) where
  order := by
    simp only [Buffered.fill, List.append_assoc, List.take_append_drop, h.order]
  bound := by
    have := h.bound
    simp only [Buffered.fill, List.length_append, List.length_map, List.length_take]
    omega
  once := by
    have hmap : ((b.waiting.take (n - b.running.length)).map fun job => (job, first job)).map Prod.fst =
        b.waiting.take (n - b.running.length) := by
      rw [List.map_map]
      exact List.map_id _
    simp only [Buffered.fill, List.map_append, hmap, ← List.append_assoc]
    exact h.once.append_right _

theorem Orderly.advance (h : Orderly n jobs b) (hi : b.running[i]? = some (job, state)) (state' : σ) :
    Orderly n jobs (b.advance i job state') where
  order := h.order
  bound := by
    simp only [Buffered.advance, List.length_set]
    exact h.bound
  once := by
    have hset : (b.running.map Prod.fst).set i job = b.running.map Prod.fst :=
      set_self (by rw [List.getElem?_map, hi]; rfl)
    simp only [Buffered.advance, List.map_set, hset]
    exact h.once

theorem running_perm (hi : b.running[i]? = some (job, state)) :
    b.running.Perm ((job, state) :: b.running.eraseIdx i) := by
  obtain ⟨hlt, hget⟩ := List.getElem?_eq_some_iff.1 hi
  rw [← hget]
  exact (List.getElem_cons_eraseIdx_perm hlt).symm

theorem Orderly.finish (h : Orderly n jobs b) (hi : b.running[i]? = some (job, state)) (result : β) :
    Orderly n jobs (b.finish i job result) where
  order := h.order
  bound := Nat.le_trans (List.length_eraseIdx_le b.running i) h.bound
  once := by
    have hperm : (b.running.map Prod.fst).Perm (job :: (b.running.eraseIdx i).map Prod.fst) :=
      (running_perm hi).map Prod.fst
    simp only [Buffered.finish, List.map_append, List.map_cons, List.map_nil, List.append_assoc,
      List.singleton_append]
    exact h.once.trans (hperm.append_left _)

/-- Where there is room, something runs as long as something waits. -/
theorem fill_running_eq_nil (hn : 0 < n) (first : α → σ) (h : (b.fill n first).running = []) :
    (b.fill n first).waiting = [] := by
  simp only [fill, List.append_eq_nil_iff, List.map_eq_nil_iff, List.take_eq_nil_iff] at h ⊢
  obtain ⟨hrun, hroom | hwait⟩ := h
  · rw [hrun, List.length_nil] at hroom
    omega
  · rw [hwait, List.drop_nil]

/-- Once nothing runs and nothing waits, every job has finished once. -/
theorem Orderly.all_completed (h : Orderly n jobs b) (hrun : b.running = []) (hwait : b.waiting = []) :
    (b.completed.map Prod.fst).Perm jobs := by
  have horder := h.order
  have honce := h.once
  rw [hwait, List.append_nil] at horder
  rw [hrun, List.map_nil, List.append_nil, horder] at honce
  exact honce.symm

/-- As long as something runs, not every job has finished. -/
theorem Orderly.not_all_completed (h : Orderly n jobs b) (hrun : b.running ≠ []) :
    ¬ (b.completed.map Prod.fst).Perm jobs := by
  intro hperm
  have horder := congrArg List.length h.order
  have honce := h.once.length_eq
  have hlen := hperm.length_eq
  have hpos := List.length_pos_iff.2 hrun
  simp only [List.length_append, List.length_map] at horder honce hlen
  omega

/-! ### What is left to do -/

/-- The price of what is left: `c` for a job that waits, and that of its state for one that runs. -/
def load (c : Nat) (price : σ → Nat) (b : Buffered α σ β) : Nat :=
  c * b.waiting.length + (b.running.map fun r => price r.2).sum

variable {c : Nat} {price : σ → Nat}

theorem load_fill_le {first : α → σ} (hfirst : ∀ job, price (first job) ≤ c) :
    (b.fill n first).load c price ≤ b.load c price := by
  have hnew : ∀ started : List α,
      ((started.map fun job => (job, first job)).map fun r => price r.2).sum ≤ c * started.length := by
    intro started
    induction started with
    | nil => exact Nat.zero_le _
    | cons job started ih =>
      have := hfirst job
      simp only [List.map_cons, List.sum_cons, List.length_cons, Nat.mul_succ]
      omega
  have hsplit := congrArg (fun l => c * l.length) (List.take_append_drop (n - b.running.length) b.waiting)
  have := hnew (b.waiting.take (n - b.running.length))
  simp only [List.length_append, Nat.mul_add] at hsplit
  simp only [load, fill, List.map_append, List.sum_append]
  omega

theorem load_advance (hi : b.running[i]? = some (job, state)) (state' : σ) :
    (b.advance i job state').load c price + price state = b.load c price + price state' := by
  have := sum_map_set (fun r : α × σ => price r.2) hi (job, state')
  simp only [load, advance] at this ⊢
  omega

theorem load_finish (hi : b.running[i]? = some (job, state)) (result : β) :
    (b.finish i job result).load c price + price state = b.load c price := by
  have hsum := ((running_perm hi).map fun r => price r.2).sum_eq
  simp only [List.map_cons, List.sum_cons] at hsum
  simp only [load, finish]
  omega

end Buffered

end Machine
