import WarpSocks.Io
import WarpSocks.Machine.Buffered
import WarpSocks.Machine.Trace
import WarpSocks.SocketText

/-!
# Racing dials

`interleave_addresses` and `connect_first` of `outbound/ip.rs`.  The targets are ordered by alternating families,
IPv4 first, and dialled in this order with two attempts in flight (`buffer_unordered(2)` of the futures crate).
An attempt other than the first one sleeps before it dials, and the dial has a timeout.  When sleeps end, when
dials return and what they return is up to the events.  The first success is the result; an error is the result
once every target has been tried (`connectFirst_tries_all`).  What an attempt has come to is what its dial has
returned in the run (`dialed_of_completed`).
-/

namespace WarpSocks.Outbound

open Machine (Buffered)
open SocketAddr (isIpv4 isIpv6)

/-! ### The order of the targets -/

/-- The loop of `interleave_addresses`: it takes one address from the front of each queue that has one. -/
def interleaveLoop : List SocketAddr → List SocketAddr → List SocketAddr → List SocketAddr
  | [], [], ordered => ordered
  | a :: v4, b :: v6, ordered => interleaveLoop v4 v6 (ordered ++ [a] ++ [b])
  | a :: v4, [], ordered => interleaveLoop v4 [] (ordered ++ [a])
  | [], b :: v6, ordered => interleaveLoop [] v6 (ordered ++ [b])

/-- `interleave_addresses`. -/
def interleaveAddresses (targets : List SocketAddr) : List SocketAddr :=
  interleaveLoop (targets.filter isIpv4) (targets.filter isIpv6) []

private theorem interleaveLoop_nil_left (v6 ordered : List SocketAddr) :
    interleaveLoop [] v6 ordered = ordered ++ v6 := by
  induction v6 generalizing ordered with
  | nil => rw [interleaveLoop, List.append_nil]
  | cons b v6 ih => rw [interleaveLoop, ih, List.append_assoc, List.singleton_append]

private theorem interleaveLoop_nil_right (v4 ordered : List SocketAddr) :
    interleaveLoop v4 [] ordered = ordered ++ v4 := by
  induction v4 generalizing ordered with
  | nil => rw [interleaveLoop, List.append_nil]
  | cons a v4 ih => rw [interleaveLoop, ih, List.append_assoc, List.singleton_append]

private theorem interleaveLoop_append (v4 v6 ordered : List SocketAddr) :
    interleaveLoop v4 v6 ordered = ordered ++ interleaveLoop v4 v6 [] := by
  induction v4 generalizing v6 ordered with
  | nil => rw [interleaveLoop_nil_left, interleaveLoop_nil_left, List.nil_append]
  | cons a v4 ih =>
    cases v6 with
    | nil => rw [interleaveLoop_nil_right, interleaveLoop_nil_right, List.nil_append]
    | cons b v6 =>
      rw [interleaveLoop, interleaveLoop, ih v6 (ordered ++ [a] ++ [b]), ih v6 ([] ++ [a] ++ [b])]
      simp only [List.append_assoc, List.nil_append]

private theorem interleaveLoop_cons_cons (a b : SocketAddr) (v4 v6 : List SocketAddr) :
    interleaveLoop (a :: v4) (b :: v6) [] = a :: b :: interleaveLoop v4 v6 [] := by
  rw [interleaveLoop, interleaveLoop_append]
  rfl

private theorem interleaveLoop_perm (v4 v6 : List SocketAddr) : (interleaveLoop v4 v6 []).Perm (v4 ++ v6) := by
  induction v4 generalizing v6 with
  | nil => rw [interleaveLoop_nil_left]
  | cons a v4 ih =>
    cases v6 with
    | nil => rw [interleaveLoop_nil_right, List.nil_append, List.append_nil]
    | cons b v6 =>
      rw [interleaveLoop_cons_cons]
      exact (((ih v6).cons b).trans List.perm_middle.symm).cons a

/-- What only one of the queues has keeps its order. -/
private theorem filter_interleaveLoop {p : SocketAddr → Bool} {v4 v6 : List SocketAddr}
    (h : (∀ a ∈ v4, p a = false) ∨ ∀ b ∈ v6, p b = false) :
    (interleaveLoop v4 v6 []).filter p = v4.filter p ++ v6.filter p := by
  induction v4 generalizing v6 with
  | nil => rw [interleaveLoop_nil_left, List.nil_append, List.filter_nil, List.nil_append]
  | cons a v4 ih =>
    cases v6 with
    | nil => rw [interleaveLoop_nil_right, List.nil_append, List.filter_nil, List.append_nil]
    | cons b v6 =>
      rw [interleaveLoop_cons_cons]
      rcases h with h | h
      · simp only [List.forall_mem_cons] at h
        have hnil : v4.filter p = [] := by simpa using h.2
        simp only [List.filter_cons, h.1, ih (.inl h.2), hnil, Bool.false_eq_true, ↓reduceIte, List.nil_append]
      · simp only [List.forall_mem_cons] at h
        simp only [List.filter_cons, h.1, ih (.inr h.2), Bool.false_eq_true, ↓reduceIte]
        split
        · rw [List.cons_append]
        · rfl

/-- While both queues have addresses they take turns; then the rest of one queue follows. -/
private theorem interleaveLoop_alternates {p : SocketAddr → Bool} {v4 v6 : List SocketAddr}
    (h4 : ∀ a ∈ v4, p a = true) (h6 : ∀ b ∈ v6, p b = false) :
    (∀ i, i < 2 * min v4.length v6.length → (interleaveLoop v4 v6 [])[i]?.map p = some (i % 2 == 0)) ∧
    (interleaveLoop v4 v6 []).drop (2 * min v4.length v6.length) =
      v4.drop (min v4.length v6.length) ++ v6.drop (min v4.length v6.length) := by
  induction v4 generalizing v6 with
  | nil => simp [interleaveLoop_nil_left]
  | cons a v4 ih =>
    cases v6 with
    | nil => simp [interleaveLoop_nil_right]
    | cons b v6 =>
      simp only [List.forall_mem_cons] at h4 h6
      obtain ⟨hturn, hrest⟩ := ih h4.2 h6.2
      have hmin : min (a :: v4).length (b :: v6).length = min v4.length v6.length + 1 := by
        simp only [List.length_cons]
        omega
      rw [interleaveLoop_cons_cons, hmin]
      refine ⟨?_, hrest⟩
      intro i hi
      match i with
      | 0 => simp [h4.1]
      | 1 => simp [h6.1]
      | i + 2 =>
        have := hturn i (by omega)
        simpa [Nat.add_mod_right] using this

private theorem isIpv4_of_mem_filter (targets : List SocketAddr) :
    (∀ a ∈ targets.filter isIpv4, isIpv4 a = true) ∧ ∀ b ∈ targets.filter isIpv6, isIpv4 b = false := by
  simp [SocketAddr.isIpv6_eq]

private theorem isIpv6_eq_not : isIpv6 = fun a => !isIpv4 a := funext SocketAddr.isIpv6_eq

/-- The order is a permutation of the targets. -/
theorem interleaveAddresses_perm (targets : List SocketAddr) : (interleaveAddresses targets).Perm targets := by
  refine (interleaveLoop_perm _ _).trans ?_
  rw [isIpv6_eq_not]
  exact List.filter_append_perm isIpv4 targets

private theorem filter_isIpv4_interleaveAddresses (targets : List SocketAddr) :
    (interleaveAddresses targets).filter isIpv4 = targets.filter isIpv4 := by
  obtain ⟨-, h6⟩ := isIpv4_of_mem_filter targets
  have hnil : (targets.filter isIpv6).filter isIpv4 = [] := List.filter_eq_nil_iff.2 fun a ha => by simp [h6 a ha]
  rw [interleaveAddresses, filter_interleaveLoop (.inr h6), hnil, List.append_nil, List.filter_filter]
  simp only [Bool.and_self]

private theorem filter_isIpv6_interleaveAddresses (targets : List SocketAddr) :
    (interleaveAddresses targets).filter isIpv6 = targets.filter isIpv6 := by
  have h4 : ∀ a ∈ targets.filter isIpv4, isIpv6 a = false := by simp [SocketAddr.isIpv6_eq]
  have hnil : (targets.filter isIpv4).filter isIpv6 = [] := List.filter_eq_nil_iff.2 fun a ha => by simp [h4 a ha]
  rw [interleaveAddresses, filter_interleaveLoop (.inl h4), hnil, List.nil_append, List.filter_filter]
  simp only [Bool.and_self]

/-! ### The race -/

/-- What an attempt waits for. -/
inductive Phase where
  | sleeping
  | dialing
  deriving DecidableEq

/-- What an attempt in flight can be woken by: its timer, or the end of its dial. -/
inductive Signal (T : Type) where
  | elapsed
  | dialed (result : Except IoError T)

/-- The phase of an attempt when it starts: all but the first one sleep for `HAPPY_EYEBALLS_DELAY`. -/
def firstPhase : SocketAddr × Nat → Phase
  | (_, index) => if 0 < index then .sleeping else .dialing

/-- `connect_first` between two events: the stream of attempts, the texts of the errors, and the result once it has
returned. -/
structure Race (T : Type) where
  attempts : Buffered (SocketAddr × Nat) Phase (Except IoError T)
  errors : List String
  result : Option (Except IoError (T × SocketAddr))

variable {T : Type}

/-- The error when no attempt is left. -/
def allFailed (errors : List String) : IoError :=
  ⟨.notConnected,
    if errors.isEmpty then "没有可连接的目标地址" else "所有目标地址连接失败: " ++ String.intercalate "; " errors⟩

/-- `attempts.next()` up to where it waits, and the end of the loop where there is nothing to wait for. -/
def awaitNext (r : Race T) : Race T :=
  let attempts := r.attempts.fill 2 firstPhase
  { r with
    attempts := attempts
    result := if attempts.running.isEmpty then some (.error (allFailed r.errors)) else none }

/-- `connect_first`, up to where it first waits. -/
def connectFirst (targets : List SocketAddr) : Race T :=
  awaitNext ⟨.new (interleaveAddresses targets).zipIdx, [], none⟩

/-- The text of a failed attempt. -/
def errorText (target : SocketAddr) (error : IoError) : String := SocketText.display target ++ ": " ++ error.msg

/-- The `i`-th attempt in flight returns. -/
def complete (r : Race T) (i : Nat) (attempt : SocketAddr × Nat) (result : Except IoError T) : Race T :=
  let attempts := r.attempts.finish i attempt result
  match result with
  | .ok stream => { r with attempts := attempts, result := some (.ok (stream, attempt.1)) }
  | .error error => awaitNext { r with attempts := attempts, errors := r.errors ++ [errorText attempt.1 error] }

/-- A signal for the `i`-th attempt in flight.  When `connect_first` has returned, its attempts are gone. -/
def step (r : Race T) : Nat × Signal T → Option (Race T)
  | (i, signal) =>
    match r.result, r.attempts.running[i]?, signal with
    | none, some (attempt, .sleeping), .elapsed => some { r with attempts := r.attempts.advance i attempt .dialing }
    | none, some (attempt, .dialing), .elapsed => some (complete r i attempt (.error ⟨.timedOut, "目标地址连接超时"⟩))
    | none, some (attempt, .dialing), .dialed result => some (complete r i attempt result)
    | _, _, _ => none

/-! ### The invariant -/

/-- The text of an attempt that has failed. -/
def failure? : (SocketAddr × Nat) × Except IoError T → Option String
  | ((target, _), .error error) => some (errorText target error)
  | (_, .ok _) => none

/-- What the result says about the attempts that have returned. -/
def ResultOf (r : Race T) : Option (Except IoError (T × SocketAddr)) → Prop
  | none => r.attempts.running ≠ [] ∧ ∀ c ∈ r.attempts.completed, c.2.isOk = false
  | some (.ok (stream, target)) => ∃ front index,
    r.attempts.completed = front ++ [((target, index), .ok stream)] ∧ ∀ c ∈ front, c.2.isOk = false
  | some (.error error) => r.attempts.running = [] ∧ r.attempts.waiting = [] ∧
    (∀ c ∈ r.attempts.completed, c.2.isOk = false) ∧ error = allFailed r.errors

/-- The invariant of a race over the attempts `jobs`. -/
structure Consistent (jobs : List (SocketAddr × Nat)) (r : Race T) : Prop where
  orderly : r.attempts.Orderly 2 jobs
  errors : r.errors = r.attempts.completed.filterMap failure?
  result : ResultOf r r.result

variable {jobs : List (SocketAddr × Nat)} {r : Race T} {i : Nat} {attempt : SocketAddr × Nat} {phase : Phase}

theorem Consistent.failed_of_none (h : Consistent jobs r) (hnone : r.result = none) :
    r.attempts.running ≠ [] ∧ ∀ c ∈ r.attempts.completed, c.2.isOk = false := by
  have := h.result
  rwa [hnone] at this

/-- As long as every attempt has failed, the loop waits for the next one, or nothing is left to wait for. -/
private theorem awaitNext_consistent (horderly : r.attempts.Orderly 2 jobs)
    (herrors : r.errors = r.attempts.completed.filterMap failure?)
    (hfailed : ∀ c ∈ r.attempts.completed, c.2.isOk = false) :
    Consistent jobs (awaitNext r) where
  orderly := horderly.fill firstPhase
  errors := herrors
  result := by
    simp only [awaitNext]
    cases hrun : (r.attempts.fill 2 firstPhase).running with
    | nil => exact ⟨hrun, Buffered.fill_running_eq_nil (by decide) firstPhase hrun, hfailed, rfl⟩
    | cons a running => exact ⟨by simp [hrun], hfailed⟩

private theorem connectFirst_consistent (targets : List SocketAddr) :
    Consistent (interleaveAddresses targets).zipIdx (connectFirst targets : Race T) :=
  awaitNext_consistent (Buffered.orderly_new 2 _) rfl nofun

private theorem complete_consistent (h : Consistent jobs r) (hnone : r.result = none)
    (hi : r.attempts.running[i]? = some (attempt, phase)) (result : Except IoError T) :
    Consistent jobs (complete r i attempt result) := by
  have horderly := h.orderly.finish hi result
  have hfailed := (h.failed_of_none hnone).2
  cases result with
  | ok stream =>
    refine ⟨horderly, ?_, r.attempts.completed, attempt.2, rfl, hfailed⟩
    simp only [complete, Buffered.finish, List.filterMap_append, h.errors]
    simp [failure?]
  | error error =>
    refine awaitNext_consistent horderly ?_ ?_
    · simp only [Buffered.finish, List.filterMap_append, h.errors]
      rfl
    · simp only [Buffered.finish, List.mem_append, List.mem_singleton]
      rintro c (hc | rfl)
      · exact hfailed c hc
      · rfl

/-- What a dial that is woken by the signal returns. -/
def Signal.Ends : Signal T → Except IoError T → Prop
  | .elapsed, result => result = .error ⟨.timedOut, "目标地址连接超时"⟩
  | .dialed returned, result => result = returned

/-- What one signal can do: it ends the sleep of an attempt, or an attempt returns. -/
private theorem step_cases {signal : Signal T} {r' : Race T} (h : step r (i, signal) = some r') :
    r.result = none ∧ ∃ attempt,
      (r.attempts.running[i]? = some (attempt, .sleeping) ∧
        r' = { r with attempts := r.attempts.advance i attempt .dialing }) ∨
      (r.attempts.running[i]? = some (attempt, .dialing) ∧
        ∃ result, signal.Ends result ∧ r' = complete r i attempt result) := by
  simp only [step] at h
  split at h
  · rename_i hnone hi
    cases h
    exact ⟨hnone, _, .inl ⟨hi, rfl⟩⟩
  · rename_i hnone hi
    cases h
    exact ⟨hnone, _, .inr ⟨hi, _, rfl, rfl⟩⟩
  · rename_i hnone hi
    cases h
    exact ⟨hnone, _, .inr ⟨hi, _, rfl, rfl⟩⟩
  · cases h

private theorem step_consistent (h : Consistent jobs r) {e : Nat × Signal T} {r' : Race T} (hs : step r e = some r') :
    Consistent jobs r' := by
  obtain ⟨hnone, attempt, ⟨hi, rfl⟩ | ⟨hi, result, -, rfl⟩⟩ := step_cases hs
  · refine ⟨h.orderly.advance hi .dialing, h.errors, ?_⟩
    obtain ⟨hrun, hfailed⟩ := h.failed_of_none hnone
    simp only [hnone]
    exact ⟨by simpa [Buffered.advance] using hrun, hfailed⟩
  · exact complete_consistent h hnone hi result

theorem exec_consistent {targets : List SocketAddr} {events : List (Nat × Signal T)}
    (h : Machine.exec step (connectFirst targets) events = some r) :
    Consistent (interleaveAddresses targets).zipIdx r :=
  Machine.exec_induction (fun _ _ _ hs hstep => step_consistent hs hstep) (connectFirst_consistent targets) h

/-! ### Where the results come from -/

/-- In the race for the targets the attempt was in flight, and its dial has returned the result. -/
def Dialed (targets : List SocketAddr) (events : List (Nat × Signal T)) (attempt : SocketAddr × Nat)
    (result : Except IoError T) : Prop :=
  ∃ front i signal back race, events = front ++ (i, signal) :: back ∧
    Machine.exec step (connectFirst targets) front = some race ∧
    race.attempts.running[i]? = some (attempt, .dialing) ∧ signal.Ends result

section

variable {targets : List SocketAddr} {events : List (Nat × Signal T)} {result : Except IoError T}

private theorem Dialed.concat (h : Dialed targets events attempt result) (e : Nat × Signal T) :
    Dialed targets (events ++ [e]) attempt result := by
  obtain ⟨front, i, signal, back, race, rfl, hrace, hi, hends⟩ := h
  exact ⟨front, i, signal, back ++ [e], race, List.append_assoc .., hrace, hi, hends⟩

private theorem completed_complete (result : Except IoError T) :
    (complete r i attempt result).attempts.completed = r.attempts.completed ++ [(attempt, result)] := by
  cases result <;> rfl

/-- Each attempt that has returned was dialled in the run, with what it has returned. -/
theorem dialed_of_completed (h : Machine.exec step (connectFirst targets) events = some r) :
    ∀ c ∈ r.attempts.completed, Dialed targets events c.1 c.2 := by
  refine Machine.exec_induction_run (P := fun es s => ∀ c ∈ s.attempts.completed,
    Dialed targets es c.1 c.2) ?_ nofun h
  rintro es s ⟨i, signal⟩ s' hexec hdialed hstep c hc
  obtain ⟨-, attempt, ⟨-, rfl⟩ | ⟨hi, result, hends, rfl⟩⟩ := step_cases hstep
  · exact (hdialed c hc).concat _
  · rw [completed_complete, List.mem_append, List.mem_singleton] at hc
    rcases hc with hc | rfl
    · exact (hdialed c hc).concat _
    · exact ⟨es, i, signal, [], s, rfl, hexec, hi, hends⟩

end

/-! ### The number of events -/

/-- How many signals an attempt takes: one ends its sleep and one its dial. -/
def signals : Phase → Nat
  | .sleeping => 2
  | .dialing => 1

private theorem awaitNext_load_le (r : Race T) :
    (awaitNext r).attempts.load 2 signals ≤ r.attempts.load 2 signals := by
  refine Buffered.load_fill_le fun job => ?_
  cases firstPhase job with
  | sleeping => exact Nat.le_refl 2
  | dialing => exact Nat.le_succ 1

private theorem complete_load_le (hi : r.attempts.running[i]? = some (attempt, .dialing))
    (result : Except IoError T) :
    (complete r i attempt result).attempts.load 2 signals + 1 ≤ r.attempts.load 2 signals := by
  have hfinish : (r.attempts.finish i attempt result).load 2 signals + 1 = r.attempts.load 2 signals :=
    Buffered.load_finish hi result
  cases result with
  | ok stream => exact Nat.le_of_eq hfinish
  | error error =>
    rw [← hfinish]
    exact Nat.add_le_add_right (awaitNext_load_le _) 1

private theorem step_load {e : Nat × Signal T} {r' : Race T} (hs : step r e = some r') :
    r'.attempts.load 2 signals + 1 ≤ r.attempts.load 2 signals := by
  obtain ⟨i, signal⟩ := e
  obtain ⟨-, attempt, ⟨hi, rfl⟩ | ⟨hi, result, -, rfl⟩⟩ := step_cases hs
  · have : (r.attempts.advance i attempt .dialing).load 2 signals + 2 = r.attempts.load 2 signals + 1 :=
      Buffered.load_advance hi .dialing
    simp only
    omega
  · exact complete_load_le hi result

private theorem connectFirst_load_le (targets : List SocketAddr) :
    (connectFirst targets : Race T).attempts.load 2 signals ≤ 2 * targets.length := by
  refine Nat.le_trans (awaitNext_load_le _) ?_
  have := (interleaveAddresses_perm targets).length_eq
  simp only [Buffered.load, Buffered.new, List.length_zipIdx, List.map_nil, List.sum_nil]
  omega

private theorem exec_length_le {targets : List SocketAddr} {events : List (Nat × Signal T)}
    (h : Machine.exec step (connectFirst targets) events = some r) : events.length ≤ 2 * targets.length := by
  have hload : events.length + r.attempts.load 2 signals ≤
      (connectFirst targets : Race T).attempts.load 2 signals := by
    refine Machine.exec_induction_events
      (P := fun es s => es.length + s.attempts.load 2 signals ≤
        (connectFirst targets : Race T).attempts.load 2 signals)
      ?_ (by simp) h
    intro es s e s' hs hstep
    have := step_load hstep
    simp only [List.length_append, List.length_singleton]
    omega
  have := connectFirst_load_le (T := T) targets
  omega

/-! ### The result -/

private theorem Consistent.of_error (h : Consistent jobs r) {error : IoError}
    (herror : r.result = some (.error error)) :
    r.attempts.running = [] ∧ r.attempts.waiting = [] ∧ (∀ c ∈ r.attempts.completed, c.2.isOk = false) ∧
      error = allFailed r.errors := by
  have := h.result
  rwa [herror] at this

/-- The result is the stream and the target of the first attempt that returned a stream. -/
theorem Consistent.find_of_ok (h : Consistent jobs r) {stream : T} {target : SocketAddr}
    (hok : r.result = some (.ok (stream, target))) :
    ∃ index, r.attempts.completed.find? (·.2.isOk) = some ((target, index), .ok stream) := by
  have hresult := h.result
  rw [hok] at hresult
  obtain ⟨front, index, hcompleted, hfailed⟩ := hresult
  have hfront : front.find? (·.2.isOk) = none := List.find?_eq_none.2 fun c hc => by simp [hfailed c hc]
  exact ⟨index, by rw [hcompleted, List.find?_append, hfront]; rfl⟩

private theorem Consistent.ok_or_failed (h : Consistent jobs r) :
    (∃ stream target, r.result = some (.ok (stream, target))) ∨ ∀ c ∈ r.attempts.completed, c.2.isOk = false := by
  match hresult : r.result with
  | none => exact .inr (h.failed_of_none hresult).2
  | some (.ok (stream, target)) => exact .inl ⟨stream, target, rfl⟩
  | some (.error error) => exact .inr (h.of_error hresult).2.2.1

private theorem Consistent.ok_iff (h : Consistent jobs r) (stream : T) (target : SocketAddr) :
    r.result = some (.ok (stream, target)) ↔
      ∃ index, r.attempts.completed.find? (·.2.isOk) = some ((target, index), .ok stream) := by
  constructor
  · exact h.find_of_ok
  · rintro ⟨index, hfind⟩
    rcases h.ok_or_failed with ⟨stream', target', hok⟩ | hfailed
    · obtain ⟨index', hfind'⟩ := h.find_of_ok hok
      rw [hfind] at hfind'
      cases hfind'
      exact hok
    · have hfailed' := hfailed _ (List.mem_of_find?_eq_some hfind)
      nomatch hfailed'

private theorem Consistent.exists_ok_iff (h : Consistent jobs r) :
    (∃ x, r.result = some (.ok x)) ↔ ∃ c ∈ r.attempts.completed, c.2.isOk = true := by
  constructor
  · rintro ⟨⟨stream, target⟩, hok⟩
    obtain ⟨index, hfind⟩ := h.find_of_ok hok
    exact ⟨_, List.mem_of_find?_eq_some hfind, rfl⟩
  · rintro ⟨c, hc, hok⟩
    rcases h.ok_or_failed with ⟨stream, target, hresult⟩ | hfailed
    · exact ⟨_, hresult⟩
    · rw [hfailed c hc] at hok
      nomatch hok

theorem Consistent.error_iff (h : Consistent jobs r) :
    (∃ error, r.result = some (.error error)) ↔
      (r.attempts.completed.map Prod.fst).Perm jobs ∧ ∀ c ∈ r.attempts.completed, c.2.isOk = false := by
  constructor
  · rintro ⟨error, herror⟩
    obtain ⟨hrun, hwait, hfailed, -⟩ := h.of_error herror
    exact ⟨h.orderly.all_completed hrun hwait, hfailed⟩
  · rintro ⟨hall, hfailed⟩
    match hresult : r.result with
    | none => exact absurd hall (h.orderly.not_all_completed (h.failed_of_none hresult).1)
    | some (.ok x) =>
      obtain ⟨c, hc, hok⟩ := h.exists_ok_iff.1 ⟨x, hresult⟩
      rw [hfailed c hc] at hok
      nomatch hok
    | some (.error error) => exact ⟨error, rfl⟩

/-- An attempt in flight can always be woken by its timer. -/
theorem exists_step (hnone : r.result = none) (hi : i < r.attempts.running.length) :
    ∃ signal : Signal T, (step r (i, signal)).isSome = true := by
  refine ⟨.elapsed, ?_⟩
  have hget := List.getElem?_eq_getElem hi
  rcases hat : r.attempts.running[i] with ⟨attempt, _ | _⟩
  · rw [hat] at hget
    simp only [step, hnone, hget, Option.isSome_some]
  · rw [hat] at hget
    simp only [step, hnone, hget, Option.isSome_some]

/-- Racing dials try every address before they give up.  The order is a permutation of the targets that keeps the
order of each family and alternates between the families, IPv4 first, until one is used up.  In every run the
attempts start in this order, each once; at most two are in flight, and each started one is in flight or has
returned.  The result is the first success among the attempts that have returned, and it is there as soon as one
of them has succeeded; it is an error, with the errors of all attempts, exactly when every attempt has returned
and failed.  Before the result some attempt is in flight, each of those in flight can be woken, and there are at
most two signals for a target. -/
theorem connectFirst_tries_all (targets : List SocketAddr) :
    (interleaveAddresses targets).Perm targets ∧
    (interleaveAddresses targets).filter isIpv4 = targets.filter isIpv4 ∧
    (interleaveAddresses targets).filter isIpv6 = targets.filter isIpv6 ∧
    (∀ both, both = min (targets.filter isIpv4).length (targets.filter isIpv6).length →
      (∀ i, i < 2 * both → (interleaveAddresses targets)[i]?.map isIpv4 = some (i % 2 == 0)) ∧
      (interleaveAddresses targets).drop (2 * both) =
        (targets.filter isIpv4).drop both ++ (targets.filter isIpv6).drop both) ∧
    ∀ (T : Type) (events : List (Nat × Signal T)) (r : Race T),
      Machine.exec step (connectFirst targets) events = some r →
      r.attempts.started ++ r.attempts.waiting = (interleaveAddresses targets).zipIdx ∧
      r.attempts.running.length ≤ 2 ∧
      r.attempts.started.Perm (r.attempts.completed.map Prod.fst ++ r.attempts.running.map Prod.fst) ∧
      ((∃ x, r.result = some (.ok x)) ↔ ∃ c ∈ r.attempts.completed, c.2.isOk = true) ∧
      (∀ stream target, r.result = some (.ok (stream, target)) ↔
        ∃ index, r.attempts.completed.find? (·.2.isOk) = some ((target, index), .ok stream)) ∧
      ((∃ error, r.result = some (.error error)) ↔
        (r.attempts.completed.map Prod.fst).Perm (interleaveAddresses targets).zipIdx ∧
          ∀ c ∈ r.attempts.completed, c.2.isOk = false) ∧
      (∀ error, r.result = some (.error error) → error = allFailed (r.attempts.completed.filterMap failure?)) ∧
      (r.result = none → r.attempts.running ≠ [] ∧
        ∀ i, i < r.attempts.running.length → ∃ signal : Signal T, (step r (i, signal)).isSome = true) ∧
      events.length ≤ 2 * targets.length := by
  refine ⟨interleaveAddresses_perm targets, filter_isIpv4_interleaveAddresses targets,
    filter_isIpv6_interleaveAddresses targets, ?_, ?_⟩
  · rintro both rfl
    obtain ⟨h4, h6⟩ := isIpv4_of_mem_filter targets
    exact interleaveLoop_alternates h4 h6
  · intro T events r h
    have hconsistent := exec_consistent h
    obtain ⟨horder, hbound, honce⟩ := hconsistent.orderly
    refine ⟨horder, hbound, honce, hconsistent.exists_ok_iff, hconsistent.ok_iff, hconsistent.error_iff, ?_, ?_,
      exec_length_le h⟩
    · intro error herror
      rw [← hconsistent.errors]
      exact (hconsistent.of_error herror).2.2.2
    · intro hnone
      exact ⟨(hconsistent.failed_of_none hnone).1, fun i hi => exists_step hnone hi⟩

/-- The dial of an IPv4 address stalls; the IPv6 address behind it is dialled after its sleep and is the result. -/
theorem connectFirst_tries_all_stalled :
    ∃ (v4 v6 : SocketAddr) (r : Race Unit), isIpv4 v4 = true ∧ isIpv6 v6 = true ∧
      Machine.exec step (connectFirst [v4, v6]) [(1, .elapsed), (1, .dialed (.ok ()))] = some r ∧
      r.result = some (.ok ((), v6)) ∧ r.attempts.running.length ≤ 2 := by
  have hstart : (connectFirst [.v4 (Ipv4Addr.new 192 0 2 1) 443,
    .v6 ⟨List.replicate 16 0, rfl⟩ 443 0 0] : Race Unit) =
      awaitNext ⟨.new [(.v4 (Ipv4Addr.new 192 0 2 1) 443, 0), (.v6 ⟨List.replicate 16 0, rfl⟩ 443 0 0, 1)], [],
        none⟩ := by
    rw [connectFirst]
    change awaitNext ⟨.new (interleaveLoop [_] [_] []).zipIdx, [], none⟩ = _
    rw [interleaveLoop_cons_cons, interleaveLoop_nil_left]
    rfl
  refine ⟨.v4 (Ipv4Addr.new 192 0 2 1) 443, .v6 ⟨List.replicate 16 0, rfl⟩ 443 0 0, ?_⟩
  obtain ⟨-, -, -, -, hruns⟩ := connectFirst_tries_all
    [.v4 (Ipv4Addr.new 192 0 2 1) 443, .v6 ⟨List.replicate 16 0, rfl⟩ 443 0 0]
  have hruns := hruns Unit [(1, .elapsed), (1, .dialed (.ok ()))]
  rw [hstart] at hruns ⊢
  exact ⟨_, rfl, rfl, rfl, rfl, (hruns _ rfl).2.1⟩

end WarpSocks.Outbound
