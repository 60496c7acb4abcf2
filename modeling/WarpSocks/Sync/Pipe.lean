/-!
# Pipes

One direction of a pipe in memory: what is written goes to the end of a bounded buffer, what is read comes from
its front, and the end is signalled only behind everything that was written.
-/

namespace Sync

/-- A pipe with what was taken from it. -/
structure Pipe (α : Type) (capacity : Nat) where
  taken : List α
  buffer : List α
  /-- The writer has shut it down or is gone. -/
  closed : Bool
  le : buffer.length ≤ capacity

namespace Pipe

variable {α : Type} {capacity : Nat}

def new : Pipe α capacity := ⟨[], [], false, Nat.zero_le _⟩

/-- Everything that was written. -/
def sent (p : Pipe α capacity) : List α := p.taken ++ p.buffer

/-- How much of `xs` there is room for. -/
def room (p : Pipe α capacity) (xs : List α) : Nat := min xs.length (capacity - p.buffer.length)

/-- One write: as much of `xs` as there is room for. -/
def write (p : Pipe α capacity) (xs : List α) : Pipe α capacity where
  taken := p.taken
  buffer := p.buffer ++ xs.take (p.room xs)
  closed := p.closed
  le := by
    have := p.le
    have : p.room xs ≤ capacity - p.buffer.length := Nat.min_le_right _ _
    rw [List.length_append, List.length_take]
    omega

def close (p : Pipe α capacity) : Pipe α capacity := { p with closed := true }

inductive Read (α : Type) (capacity : Nat) where
  | pending
  | ended
  | bytes (p : Pipe α capacity)

/-- One read into a buffer of `n`. -/
def read (p : Pipe α capacity) (n : Nat) : Read α capacity :=
  if p.buffer ≠ [] then
    .bytes {
      taken := p.taken ++ p.buffer.take n
      buffer := p.buffer.drop n
      closed := p.closed
      le := Nat.le_trans (by rw [List.length_drop]; omega) p.le }
  else if p.closed then .ended
  else .pending

theorem taken_of_drained {p : Pipe α capacity} (h : p.buffer = []) : p.taken = p.sent := by
  unfold sent
  rw [h, List.append_nil]

theorem close_of_closed {p : Pipe α capacity} (h : p.closed = true) : p.close = p := by
  unfold close
  rw [← h]

theorem sent_write (p : Pipe α capacity) (xs : List α) : (p.write xs).sent = p.sent ++ xs.take (p.room xs) :=
  (List.append_assoc _ _ _).symm

/-- A read takes something and leaves what was written. -/
theorem read_bytes {p p' : Pipe α capacity} {n : Nat} (h : p.read n = .bytes p') :
    p.buffer ≠ [] ∧ p'.sent = p.sent ∧ p'.closed = p.closed ∧ p'.taken = p.taken ++ p.buffer.take n := by
  unfold read at h
  split at h
  · rename_i hne
    cases h
    refine ⟨hne, ?_, rfl, rfl⟩
    unfold sent
    rw [List.append_assoc, List.take_append_drop]
  · split at h
    · nomatch h
    · nomatch h

theorem read_ended {p : Pipe α capacity} {n : Nat} (h : p.read n = .ended) : p.closed = true ∧ p.buffer = [] := by
  unfold read at h
  split at h
  · nomatch h
  · rename_i hempty
    split at h
    · rename_i hclosed
      exact ⟨hclosed, Decidable.not_not.1 hempty⟩
    · nomatch h

/-- A read of a pipe that is not empty takes a chunk, and less is left. -/
theorem read_of_nonempty {p : Pipe α capacity} {n : Nat} (hn : 0 < n) (hbuffer : p.buffer ≠ []) :
    ∃ p', p.read n = .bytes p' ∧ p.buffer.take n ≠ [] ∧ p'.buffer.length < p.buffer.length := by
  have hpos := List.length_pos_iff.2 hbuffer
  refine ⟨_, if_pos hbuffer, fun hnil => ?_, ?_⟩
  · rcases List.take_eq_nil_iff.1 hnil with h | h
    · exact Nat.ne_of_gt hn h
    · exact hbuffer h
  · rw [List.length_drop]
    exact Nat.sub_lt hpos hn

theorem read_of_closed {p : Pipe α capacity} (n : Nat) (hclosed : p.closed = true) (hbuffer : p.buffer = []) :
    p.read n = .ended := by
  unfold read
  rw [if_neg (not_not_intro hbuffer), if_pos hclosed]

end Pipe

end Sync
