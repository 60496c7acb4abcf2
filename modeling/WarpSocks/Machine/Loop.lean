/-!
# Event loops

A loop that takes one event after the other until one of them ends it.  What each round keeps, every run keeps
(`run_induction`, and `run_induction_events` for what speaks about the events too); what has been reached stays on
the way to the end (`run_append`); and events that change nothing when they arrive can be added anywhere without a
trace (`run_eq_of_inserted`).
-/

namespace Machine

/-- The outcome of one round: go on with a state, or end with a result. -/
inductive Round (σ ρ : Type) where
  | next (s : σ)
  | stop (r : ρ)

variable {σ ε ρ : Type} (step : σ → ε → Round σ ρ)

/-- The state a loop reaches on the events, and its result if it has ended. -/
def run : σ → List ε → σ × Option ρ
  | s, [] => (s, none)
  | s, e :: es =>
    match step s e with
    | .next s' => run s' es
    | .stop r => (s, some r)

theorem run_cons_next {s s' : σ} {e : ε} (h : step s e = .next s') (es : List ε) :
    run step s (e :: es) = run step s' es := by rw [run, h]

theorem run_cons_stop {s : σ} {e : ε} {r : ρ} (h : step s e = .stop r) (es : List ε) :
    run step s (e :: es) = (s, some r) := by rw [run, h]

/-- A run goes on from where its front has come to, unless that has ended. -/
theorem run_append (s : σ) (es fs : List ε) :
    run step s (es ++ fs) =
      match run step s es with
      | (s', none) => run step s' fs
      | (s', some r) => (s', some r) := by
  induction es generalizing s with
  | nil => rfl
  | cons e es ih =>
    cases h : step s e with
    | next s' => rw [List.cons_append, run_cons_next step h, run_cons_next step h, ih]
    | stop r => rw [List.cons_append, run_cons_stop step h, run_cons_stop step h]

/-- Events none of which ends the loop leave it going. -/
theorem run_snd_eq_none {es : List ε} (h : ∀ e ∈ es, ∀ s, ∃ s', step s e = .next s') (s : σ) :
    (run step s es).2 = none := by
  induction es generalizing s with
  | nil => rfl
  | cons e es ih =>
    obtain ⟨s', hs'⟩ := h e List.mem_cons_self s
    rw [run_cons_next step hs']
    exact ih (fun e' he' => h e' (List.mem_cons_of_mem e he')) s'

/-- An event that ends the loop in every state gives the result, if the events before it leave the loop going. -/
theorem run_snd_append_stop {es : List ε} {e : ε} {s : σ} {P : ρ → Prop} (hes : (run step s es).2 = none)
    (he : ∀ s', ∃ r, step s' e = .stop r ∧ P r) (fs : List ε) :
    ∃ r, (run step s (es ++ e :: fs)).2 = some r ∧ P r := by
  rw [run_append]
  rcases hrun : run step s es with ⟨s', _ | r⟩
  · obtain ⟨r, hr, hP⟩ := he s'
    refine ⟨r, ?_, hP⟩
    dsimp only
    rw [run_cons_stop step hr]
  · rw [hrun] at hes
    cases hes

/-- Where only the events decide when a loop ends, its state is a fold over the events before that. -/
theorem run_fst_eq_foldl {ends : ε → Bool} {advance : σ → ε → σ} (hstop : ∀ s e, ends e → ∃ r, step s e = .stop r)
    (hnext : ∀ s e, ends e = false → step s e = .next (advance s e)) (s : σ) (es : List ε) :
    (run step s es).1 = (es.takeWhile (!ends ·)).foldl advance s := by
  induction es generalizing s with
  | nil => rfl
  | cons e es ih =>
    cases he : ends e with
    | true =>
      obtain ⟨r, hr⟩ := hstop s e he
      simp [run_cons_stop step hr, he]
    | false => simp [run_cons_next step (hnext s e he), he, ih]

/-- What holds at the start and is kept by every round holds after every run. -/
theorem run_induction {P : σ → Prop} (hstep : ∀ s e s', P s → step s e = .next s' → P s') {s : σ} (hs : P s)
    (es : List ε) : P (run step s es).1 := by
  induction es generalizing s with
  | nil => exact hs
  | cons e es ih =>
    cases h : step s e with
    | next s' =>
      rw [run_cons_next step h]
      exact ih (hstep s e s' hs h)
    | stop r =>
      rw [run_cons_stop step h]
      exact hs

/-- The result of a loop has what the last round makes of what the others keep. -/
theorem run_result_induction {P : σ → Prop} {Q : ρ → Prop} (hnext : ∀ s e s', P s → step s e = .next s' → P s')
    (hstop : ∀ s e r, P s → step s e = .stop r → Q r) {s : σ} (hs : P s) {es : List ε} {r : ρ}
    (h : (run step s es).2 = some r) : Q r := by
  induction es generalizing s with
  | nil => cases h
  | cons e es ih =>
    cases he : step s e with
    | next s' =>
      rw [run_cons_next step he] at h
      exact ih (hnext s e s' hs he) h
    | stop r' =>
      rw [run_cons_stop step he] at h
      cases h
      exact hstop s e r hs he

/-- As long as the loop goes on, what every round keeps holds, also if it speaks about the events so far. -/
theorem run_induction_events {P : List ε → σ → Prop}
    (hstep : ∀ es s e s', P es s → step s e = .next s' → P (es ++ [e]) s')
    {s : σ} (hs : P [] s) {es : List ε} (h : (run step s es).2 = none) : P es (run step s es).1 := by
  suffices hgen : ∀ es₀ s, P es₀ s → (run step s es).2 = none → P (es₀ ++ es) (run step s es).1 from hgen [] s hs h
  clear hs h s
  induction es with
  | nil =>
    intro es₀ s hs _
    rwa [List.append_nil]
  | cons e es ih =>
    intro es₀ s hs h
    cases he : step s e with
    | next s' =>
      rw [run_cons_next step he] at h ⊢
      have := ih (es₀ ++ [e]) s' (hstep es₀ s e s' hs he) h
      rwa [List.append_assoc] at this
    | stop r =>
      rw [run_cons_stop step he] at h
      cases h

/-- The second list has the events of the first and, in between, others that are `junk` in the state the run is in
when they arrive.  Behind the end of the loop the lists may be any. -/
inductive Inserted (junk : σ → ε → Prop) : σ → List ε → List ε → Prop where
  | nil (s : σ) : Inserted junk s [] []
  | keep {s : σ} (e : ε) {es es' : List ε} :
    (∀ s', step s e = .next s' → Inserted junk s' es es') → Inserted junk s (e :: es) (e :: es')
  | insert {s : σ} {e : ε} {es es' : List ε} : junk s e → Inserted junk s es es' → Inserted junk s es (e :: es')

/-- Events that change nothing when they arrive leave no trace. -/
theorem run_eq_of_inserted {junk : σ → ε → Prop} (hjunk : ∀ s e, junk s e → step s e = .next s) {s : σ}
    {es es' : List ε} (h : Inserted step junk s es es') : run step s es' = run step s es := by
  induction h with
  | nil s => rfl
  | keep e _ ih =>
    rename_i s es es' _
    cases hs : step s e with
    | next s' => rw [run_cons_next step hs, run_cons_next step hs, ih s' hs]
    | stop r => rw [run_cons_stop step hs, run_cons_stop step hs]
  | insert hj _ ih => rw [run_cons_next step (hjunk _ _ hj), ih]

end Machine
