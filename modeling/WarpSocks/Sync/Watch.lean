/-!
# Watch channels

A cell with one value and the number of times it was replaced.  A receiver remembers the version it has seen last:
reading the value marks its version as seen, and a receiver is told about a change as soon as the cell has another
version.
-/

namespace Sync

/-- The cell of a watch channel. -/
structure Watch (α : Type) where
  value : α
  version : Nat
  /-- The sender is dropped. -/
  closed : Bool

namespace Watch

variable {α : Type}

def new (value : α) : Watch α := ⟨value, 0, false⟩

/-- Replaces the value. -/
def send (w : Watch α) (value : α) : Watch α := { w with value, version := w.version + 1 }

def close (w : Watch α) : Watch α := { w with closed := true }

/-- The value, and the version that is seen with it. -/
def borrowAndUpdate (w : Watch α) : α × Nat := (w.value, w.version)

/-- A wait for a change. -/
inductive Changed where
  | pending
  | changed (seen : Nat)
  | closed
  deriving DecidableEq

/-- A version that was not seen is reported before the end of the sender. -/
def changed (w : Watch α) (seen : Nat) : Changed :=
  if seen ≠ w.version then .changed w.version
  else if w.closed then .closed
  else .pending

theorem changed_of_ne {w : Watch α} {seen : Nat} (h : seen ≠ w.version) : w.changed seen = .changed w.version :=
  if_pos h

end Watch

end Sync
