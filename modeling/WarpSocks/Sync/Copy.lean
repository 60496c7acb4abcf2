/-!
# Copying from a source to a sink

A loop that fills a buffer from a source and writes the buffer to a sink, poll by poll.  Both sides answer as they
like: a read fills part of what is free, a write takes part of what is there, and each of them may fail.  What was
read is at every instant written or still in the buffer, and the loop ends without an error only when all of it is
written and flushed (`Steps.ok`).
-/

namespace Sync

/-- The loop, with what has passed through it. -/
structure Copy (α : Type) (size : Nat) where
  /-- What was read. -/
  taken : List α
  written : List α
  /-- What was written when the sink was last flushed. -/
  flushed : List α
  /-- The filled part of the buffer. -/
  buffer : List α
  /-- How much of it is written. -/
  pos : Nat
  readDone : Bool
  needFlush : Bool
  le : pos ≤ buffer.length
  conserved : taken = written ++ buffer.drop pos

namespace Copy

variable {α ε : Type} {size : Nat}

def new : Copy α size := ⟨[], [], [], [], 0, false, false, Nat.le_refl 0, rfl⟩

/-- What the two sides answer. -/
inductive Event (α ε : Type) where
  /-- An empty answer is the end of the source. -/
  | read (xs : List α)
  | readFailed (error : ε)
  | wrote (count : Nat)
  | writeFailed (error : ε)
  | flushed
  | flushFailed (error : ε)

namespace Event

/-- What the source hands over. -/
def input : Event α ε → List α
  | read xs => xs
  | _ => []

/-- The error that the answer comes to; `writeZero` is the one for a sink that takes nothing. -/
def error? (writeZero : ε) : Event α ε → Option ε
  | readFailed e | writeFailed e | flushFailed e => some e
  | wrote 0 => some writeZero
  | _ => none

end Event

/-- Fills the buffer behind what it holds. -/
def fill (c : Copy α size) (xs : List α) : Copy α size :=
  { c with
    taken := c.taken ++ xs
    buffer := c.buffer ++ xs
    readDone := xs.isEmpty
    le := Nat.le_trans c.le (by rw [List.length_append]; omega)
    conserved := by rw [c.conserved, List.drop_append_of_le_length c.le, List.append_assoc] }

/-- The sink takes `count` of what is not written.  A buffer that is written is empty. -/
def advance (c : Copy α size) (count : Nat) : Copy α size where
  taken := c.taken
  written := c.written ++ (c.buffer.drop c.pos).take count
  flushed := c.flushed
  buffer := if c.pos + count < c.buffer.length then c.buffer else []
  pos := if c.pos + count < c.buffer.length then c.pos + count else 0
  readDone := c.readDone
  needFlush := true
  le := by
    split
    · omega
    · exact Nat.le_refl 0
  conserved := by
    rw [c.conserved, List.append_assoc]
    congr 1
    split
    · rw [← List.drop_drop, List.take_append_drop]
    · rw [List.drop_nil, List.append_nil, List.take_of_length_le (by rw [List.length_drop]; omega)]

def flush (c : Copy α size) : Copy α size := { c with flushed := c.written, needFlush := false }

/-- One answer of a side, and the result of the loop if it ends with it; `none` if the loop does not ask for it. -/
def step (writeZero : ε) (c : Copy α size) : Event α ε → Option (Copy α size × Option (Except ε Unit))
  | .read xs =>
    if c.readDone = false ∧ c.buffer.length < size ∧ c.buffer.length + xs.length ≤ size then some (c.fill xs, none)
    else none
  | .readFailed e => if c.readDone = false ∧ c.buffer.length < size then some (c, some (.error e)) else none
  | .wrote count =>
    if c.pos < c.buffer.length ∧ c.pos + count ≤ c.buffer.length then
      if count = 0 then some (c, some (.error writeZero)) else some (c.advance count, none)
    else none
  | .writeFailed e => if c.pos < c.buffer.length then some (c, some (.error e)) else none
  | .flushed =>
    if c.buffer = [] then
      -- the end of the source was read, or the source has nothing yet
      if c.readDone then some (c.flush, some (.ok ()))
      else if c.needFlush then some (c.flush, none)
      else none
    else none
  | .flushFailed e =>
    if c.buffer = [] ∧ (c.readDone = true ∨ c.needFlush = true) then some (c, some (.error e)) else none

variable {writeZero : ε} {c c' : Copy α size} {e : Event α ε} {result : Option (Except ε Unit)}

theorem written_prefix (c : Copy α size) : c.written <+: c.taken := ⟨_, c.conserved.symm⟩

theorem written_of_empty (h : c.buffer = []) : c.written = c.taken := by
  rw [c.conserved, h, List.drop_nil, List.append_nil]

/-- What a step does: what it reads goes behind what was read, the loop ends well only with everything flushed,
and badly only with an error of a side. -/
structure Steps (writeZero : ε) (c c' : Copy α size) (e : Event α ε) (result : Option (Except ε Unit)) : Prop where
  taken : c'.taken = c.taken ++ e.input
  written : c.written <+: c'.written
  ok : result = some (.ok ()) → c'.readDone = true ∧ c'.flushed = c'.taken
  error : ∀ error, result = some (.error error) → e.error? writeZero = some error

private theorem steps_failed {error : ε} (hinput : e.input = []) (herror : e.error? writeZero = some error) :
    Steps writeZero c c e (some (.error error)) := by
  refine ⟨by rw [hinput, List.append_nil], List.prefix_refl _, fun h => (nomatch h), fun error' h => ?_⟩
  cases h
  exact herror

theorem step_steps (h : c.step writeZero e = some (c', result)) : Steps writeZero c c' e result := by
  cases e with
  | read xs =>
    simp only [step, Option.ite_none_right_eq_some, Option.some.injEq, Prod.mk.injEq] at h
    obtain ⟨_, rfl, rfl⟩ := h
    exact ⟨rfl, List.prefix_refl _, fun h => (nomatch h), fun _ h => nomatch h⟩
  | readFailed error =>
    simp only [step, Option.ite_none_right_eq_some, Option.some.injEq, Prod.mk.injEq] at h
    obtain ⟨_, rfl, rfl⟩ := h
    exact steps_failed rfl rfl
  | wrote count =>
    simp only [step, Option.ite_none_right_eq_some] at h
    obtain ⟨_, h⟩ := h
    split at h
    · rename_i hzero
      cases h
      exact steps_failed rfl (by rw [hzero]; rfl)
    · cases h
      exact ⟨(List.append_nil _).symm, List.prefix_append _ _, fun h => (nomatch h), fun _ h => nomatch h⟩
  | writeFailed error =>
    simp only [step, Option.ite_none_right_eq_some, Option.some.injEq, Prod.mk.injEq] at h
    obtain ⟨_, rfl, rfl⟩ := h
    exact steps_failed rfl rfl
  | flushed =>
    simp only [step, Option.ite_none_right_eq_some] at h
    obtain ⟨hempty, h⟩ := h
    split at h
    · rename_i hdone
      cases h
      exact ⟨(List.append_nil _).symm, List.prefix_refl _, fun _ => ⟨hdone, written_of_empty hempty⟩,
        fun _ h => nomatch h⟩
    · obtain ⟨_, h⟩ := Option.ite_none_right_eq_some.1 h
      cases h
      exact ⟨(List.append_nil _).symm, List.prefix_refl _, fun h => (nomatch h), fun _ h => nomatch h⟩
  | flushFailed error =>
    simp only [step, Option.ite_none_right_eq_some, Option.some.injEq, Prod.mk.injEq] at h
    obtain ⟨_, rfl, rfl⟩ := h
    exact steps_failed rfl rfl

end Copy

end Sync
