/-!
# Traces of a partial step function

A system that takes one event after the other; `none` says that the event cannot occur in the state.  What holds
at the start and is kept by every event holds after every trace (`exec_induction`), also if it speaks about the
events so far (`exec_induction_events`, `exec_induction_run`).  A machine may be seen as another one with fewer
events (`exec_flatMap`), and its events may show something (`outputs`).
-/

namespace Machine

variable {σ ε : Type} (step : σ → ε → Option σ)

/-- The state after the events, if each of them can occur where it stands. -/
def exec : σ → List ε → Option σ
  | s, [] => some s
  | s, e :: es => (step s e).bind fun s' => exec s' es

variable {step}

theorem exec_cons {s s' : σ} {e : ε} {es : List ε} :
    exec step s (e :: es) = some s' ↔ ∃ t, step s e = some t ∧ exec step t es = some s' :=
  Option.bind_eq_some_iff

theorem exec_single {s s' : σ} {e : ε} (h : step s e = some s') : exec step s [e] = some s' :=
  exec_cons.2 ⟨s', h, rfl⟩

/-- A run of events of one kind, with one more of them in front. -/
theorem exec_cons_all {P : ε → Prop} {s t s' : σ} {e : ε} (he : P e) (hstep : step s e = some t)
    (h : ∃ es, (∀ e ∈ es, P e) ∧ exec step t es = some s') : ∃ es, (∀ e ∈ es, P e) ∧ exec step s es = some s' := by
  obtain ⟨es, hes, hexec⟩ := h
  exact ⟨e :: es, List.forall_mem_cons.2 ⟨he, hes⟩, exec_cons.2 ⟨t, hstep, hexec⟩⟩

theorem exec_append {s s' : σ} {es fs : List ε} :
    exec step s (es ++ fs) = some s' ↔ ∃ t, exec step s es = some t ∧ exec step t fs = some s' := by
  induction es generalizing s with
  | nil => simp [exec]
  | cons e es ih =>
    simp only [List.cons_append, exec_cons, ih]
    constructor
    · rintro ⟨t, ht, u, hu, hs⟩
      exact ⟨u, ⟨t, ht, hu⟩, hs⟩
    · rintro ⟨u, ⟨t, ht, hu⟩, hs⟩
      exact ⟨t, ht, u, hu, hs⟩

theorem exec_concat {s s' : σ} {e : ε} {es : List ε} :
    exec step s (es ++ [e]) = some s' ↔ ∃ t, exec step s es = some t ∧ step t e = some s' := by
  simp [exec_append, exec]

/-- What every event keeps holds after every trace. -/
theorem exec_induction {P : σ → Prop} (hstep : ∀ s e s', P s → step s e = some s' → P s') {s s' : σ} {es : List ε}
    (hs : P s) (h : exec step s es = some s') : P s' := by
  induction es generalizing s with
  | nil =>
    cases h
    exact hs
  | cons e es ih =>
    obtain ⟨t, ht, hes⟩ := exec_cons.1 h
    exact ih (hstep s e t hs ht) hes

/-- What every event keeps holds after every trace, also if it speaks about the events so far. -/
theorem exec_induction_events {P : List ε → σ → Prop}
    (hstep : ∀ es s e s', P es s → step s e = some s' → P (es ++ [e]) s') {s s' : σ} {es : List ε} (hs : P [] s)
    (h : exec step s es = some s') : P es s' := by
  suffices hgen : ∀ es₀ s, P es₀ s → exec step s es = some s' → P (es₀ ++ es) s' from hgen [] s hs h
  clear hs h s
  induction es with
  | nil =>
    intro es₀ s hs h
    cases h
    rwa [List.append_nil]
  | cons e es ih =>
    intro es₀ s hs h
    obtain ⟨t, ht, hes⟩ := exec_cons.1 h
    have := ih (es₀ ++ [e]) t (hstep es₀ s e t hs ht) hes
    rwa [List.append_assoc] at this

/-- What every event keeps holds after every trace, also if it needs the trace so far. -/
theorem exec_induction_run {P : List ε → σ → Prop} {s : σ}
    (hstep : ∀ es t e t', exec step s es = some t → P es t → step t e = some t' → P (es ++ [e]) t') {s' : σ}
    {es : List ε} (hs : P [] s) (h : exec step s es = some s') : P es s' := by
  suffices hboth : exec step s es = some s' ∧ P es s' from hboth.2
  refine exec_induction_events (P := fun es t => exec step s es = some t ∧ P es t) ?_ ⟨rfl, hs⟩ h
  rintro es t e t' ⟨hrun, ht⟩ he
  exact ⟨exec_concat.2 ⟨t, hrun, he⟩, hstep es t e t' hrun ht he⟩

/-- A machine each of whose events shows as events of another one runs as that one does. -/
theorem exec_flatMap {σ' ε' : Type} {step' : σ' → ε' → Option σ'} {f : σ → σ'} {g : ε → List ε'}
    (hstep : ∀ s e s', step s e = some s' → exec step' (f s) (g e) = some (f s')) {s s' : σ} {es : List ε}
    (h : exec step s es = some s') : exec step' (f s) (es.flatMap g) = some (f s') := by
  induction es generalizing s with
  | nil =>
    cases h
    rfl
  | cons e es ih =>
    obtain ⟨t, ht, hes⟩ := exec_cons.1 h
    rw [List.flatMap_cons]
    exact exec_append.2 ⟨f t, hstep s e t ht, ih hes⟩

/-- What the events of a trace show, in their order. -/
def outputs {α : Type} (step : σ → ε → Option σ) (out : σ → ε → σ → Option α) : σ → List ε → List α
  | _, [] => []
  | s, e :: es =>
    match step s e with
    | none => []
    | some s' => (out s e s').toList ++ outputs step out s' es

theorem outputs_concat {α : Type} (out : σ → ε → σ → Option α) {s t t' : σ} {es : List ε} {e : ε}
    (h : exec step s es = some t) (he : step t e = some t') :
    outputs step out s (es ++ [e]) = outputs step out s es ++ (out t e t').toList := by
  induction es generalizing s with
  | nil =>
    cases h
    simp [outputs, he]
  | cons e' es ih =>
    obtain ⟨s', hs', hes⟩ := exec_cons.1 h
    simp [outputs, hs', ih hes]

end Machine
