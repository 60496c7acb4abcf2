/-!
# Semaphores

A counting semaphore that is only ever tried, never waited for: the permits taken never exceed its capacity, and
permits that are dropped come back.
-/

namespace Sync

/-- A semaphore with the permits that are taken. -/
structure Semaphore (capacity : Nat) where
  taken : Nat
  le : taken ≤ capacity

namespace Semaphore

variable {capacity : Nat}

/-- No permit is taken. -/
def new : Semaphore capacity := ⟨0, Nat.zero_le _⟩

/-- Takes `n` permits if so many are left. -/
def tryAcquire (s : Semaphore capacity) (n : Nat) : Option (Semaphore capacity) :=
  if h : s.taken + n ≤ capacity then some ⟨s.taken + n, h⟩ else none

/-- Gives `n` permits back. -/
def release (s : Semaphore capacity) (n : Nat) : Semaphore capacity :=
  ⟨s.taken - n, Nat.le_trans (Nat.sub_le _ _) s.le⟩

@[simp]
theorem taken_release (s : Semaphore capacity) (n : Nat) : (s.release n).taken = s.taken - n := rfl

theorem taken_of_tryAcquire {s s' : Semaphore capacity} {n : Nat} (h : s.tryAcquire n = some s') :
    s'.taken = s.taken + n := by
  unfold tryAcquire at h
  split at h
  · cases h
    rfl
  · nomatch h

end Semaphore

end Sync
