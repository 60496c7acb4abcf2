/-!
# Fallible actions on a state

An action changes a state and returns a value or an error; the changes made before an error stay.  How sequencing
and catching run is stated for the two outcomes of the first action.
-/

namespace Machine

/-- A fallible action on a state. -/
abbrev Action (ε σ α : Type) := ExceptT ε (StateM σ) α

namespace Action

variable {ε σ α β : Type} {x : Action ε σ α} {s s' : σ}

theorem bind_ok {a : α} {f : α → Action ε σ β} (h : x s = (.ok a, s')) : (x >>= f) s = f a s' := by
  simp only [bind, ExceptT.bind, ExceptT.mk, StateT.bind, h, ExceptT.bindCont]

theorem bind_error {e : ε} {f : α → Action ε σ β} (h : x s = (.error e, s')) : (x >>= f) s = (.error e, s') := by
  simp only [bind, ExceptT.bind, ExceptT.mk, StateT.bind, h, ExceptT.bindCont]
  rfl

theorem bind_congr {y : Action ε σ α} {t : σ} {f : α → Action ε σ β} (h : x s = y t) : (x >>= f) s = (y >>= f) t := by
  simp only [bind, ExceptT.bind, ExceptT.mk, StateT.bind, h]

theorem map_ok {a : α} {f : α → β} (h : x s = (.ok a, s')) : (f <$> x) s = (.ok (f a), s') := by
  simp only [Functor.map, ExceptT.map, ExceptT.mk, StateT.bind, bind, h]
  rfl

theorem map_error {e : ε} {f : α → β} (h : x s = (.error e, s')) : (f <$> x) s = (.error e, s') := by
  simp only [Functor.map, ExceptT.map, ExceptT.mk, StateT.bind, bind, h]
  rfl

theorem tryCatch_ok {a : α} {f : ε → Action ε σ α} (h : x s = (.ok a, s')) : (tryCatch x f) s = (.ok a, s') := by
  simp only [tryCatch, tryCatchThe, MonadExceptOf.tryCatch, ExceptT.tryCatch, ExceptT.mk, StateT.bind, bind, h]
  rfl

theorem tryCatch_error {e : ε} {f : ε → Action ε σ α} (h : x s = (.error e, s')) : (tryCatch x f) s = f e s' := by
  simp only [tryCatch, tryCatchThe, MonadExceptOf.tryCatch, ExceptT.tryCatch, ExceptT.mk, StateT.bind, bind, h]

end Action

end Machine
