/-!
# Notifications

A cell that one task at a time waits on.  A notification that finds nobody waiting is kept as a permit for the
next wait, several of them as one; a future that was notified and is dropped unpolled hands its notification on.
So a notification stays `outstanding` until a poll returns it.
-/

namespace Sync

/-- The cell, with the future that waits on it.  While a future waits there is no permit. -/
inductive Notify where
  /-- There is no future. -/
  | idle (permit : Bool)
  /-- The future was not polled yet. -/
  | fresh (permit : Bool)
  | waiting
  /-- The future was notified and not polled since. -/
  | notified (permit : Bool)
  /-- The future has returned. -/
  | done (permit : Bool)
  deriving DecidableEq

namespace Notify

def new : Notify := .idle false

def permit : Notify → Bool
  | .idle permit | .fresh permit | .notified permit | .done permit => permit
  | .waiting => false

/-- A new future. -/
def start (n : Notify) : Notify := .fresh n.permit

/-- Notifies the future that waits, or keeps a permit. -/
def notifyOne : Notify → Notify
  | .idle _ => .idle true
  | .fresh _ => .fresh true
  | .waiting => .notified false
  | .notified _ => .notified true
  | .done _ => .done true

/-- Polls the future: whether it returns. -/
def poll : Notify → Bool × Notify
  | .idle permit => (false, .idle permit)
  | .fresh true => (true, .done false)
  | .fresh false => (false, .waiting)
  | .waiting => (false, .waiting)
  | .notified permit => (true, .done permit)
  | .done permit => (true, .done permit)

/-- Drops the future. -/
def drop : Notify → Notify
  | .idle permit | .fresh permit | .done permit => .idle permit
  | .waiting => .idle false
  | .notified _ => .idle true

/-- There is a notification that no poll has returned. -/
def outstanding : Notify → Bool
  | .idle permit | .fresh permit | .done permit => permit
  | .waiting => false
  | .notified _ => true

@[simp]
theorem outstanding_notifyOne (n : Notify) : n.notifyOne.outstanding = true := by
  cases n <;> rfl

@[simp]
theorem outstanding_drop (n : Notify) : n.drop.outstanding = n.outstanding := by
  cases n <;> rfl

/-- A future that does not return waits, and nothing is outstanding. -/
theorem poll_pending {n n' : Notify} (hn : ∀ permit, n ≠ .idle permit) (h : n.poll = (false, n')) :
    n' = .waiting ∧ n.outstanding = false := by
  cases n with
  | idle permit => exact (hn permit rfl).elim
  | fresh permit =>
    cases permit with
    | true => nomatch h
    | false =>
      cases h
      exact ⟨rfl, rfl⟩
  | waiting =>
    cases h
    exact ⟨rfl, rfl⟩
  | notified permit => nomatch h
  | done permit => nomatch h

end Notify

end Sync
