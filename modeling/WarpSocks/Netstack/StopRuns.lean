import WarpSocks.Machine.Tasks
import WarpSocks.Machine.Trace
import WarpSocks.Netstack.Stop

/-!
# Runs of a netstack that is stopped

The first reason stays, and calls made after it fail.  Of the calls that `stop_sockets` finds under way, those
that wait are woken and those in a poll come to an end on a closed socket; only a flush or a `recv_from` that has
read `is_stopped` before can be left without anybody to wake it (`stop_releases`).
-/

namespace WarpSocks.Netstack.Stop

variable {api : Sockets}

/-! ### Registered wakers -/

/-- What moving the call `i` does to the socket and its wakers. -/
structure Advanced (i : Nat) (call : Call) (entry : Entry api) (r : Phase × Entry api) : Prop where
  inFlight : call.phase.inFlight = true
  fits : call.operation.fits entry.socket = true → call.operation.fits r.2.socket = true
  other : ∀ side, side ≠ call.side → r.2.wakers side = entry.wakers side
  waiting : r.1 = .waiting → r.2.wakers call.side = some i

private theorem Locked.next_socket (l : Locked) (i : Nat) (side : Side) (entry : Entry api) :
    (l.next i side entry).2.socket = entry.socket := by
  cases l <;> rfl

private theorem Locked.next_other (l : Locked) (i : Nat) {side side' : Side} (entry : Entry api) (h : side' ≠ side) :
    (l.next i side entry).2.wakers side' = entry.wakers side' := by
  cases l with
  | pending => exact if_neg h
  | ready | unlocked => rfl

private theorem Locked.next_waiting {l : Locked} {i : Nat} {side : Side} {entry : Entry api}
    (h : (l.next i side entry).1 = .waiting) : (l.next i side entry).2.wakers side = some i := by
  cases l with
  | pending => exact if_pos rfl
  | ready | unlocked => cases h

variable {mtu : Nat} {stopped : Bool} {i : Nat} {call : Call} {entry : Entry api} {action : Action}

private theorem advanced_of_advance {r : Phase × Entry api} (h : advance mtu stopped i call entry action = some r) :
    Advanced i call entry r := by
  cases action with
  | check =>
    simp only [advance] at h
    split at h
    · rename_i hphase
      cases h
      refine ⟨by simp [hphase, Phase.inFlight], id, fun _ _ => rfl, fun hwaiting => ?_⟩
      split at hwaiting <;> cases hwaiting
    · cases h
  | lock =>
    simp only [advance] at h
    split at h
    · rename_i hphase
      obtain ⟨l, hl, rfl⟩ := Option.map_eq_some_iff.1 h
      refine ⟨by simp [hphase, Phase.inFlight], fun _ => ?_, fun side hside => l.1.next_other i _ hside,
        Locked.next_waiting⟩
      rw [l.1.next_socket]
      exact fits_lock hl
    · rename_i hphase
      split at h
      · cases h
        exact ⟨by simp [hphase, Phase.inFlight], fun hfits => by rwa [Locked.next_socket],
          fun side hside => Locked.next_other _ i _ hside, Locked.next_waiting⟩
      · cases h
    · cases h
  | repoll =>
    simp only [advance] at h
    split at h
    · rename_i hphase
      cases h
      exact ⟨by simp [hphase, Phase.inFlight], id, fun _ _ => rfl, nofun⟩
    · cases h
  | cancel =>
    simp only [advance] at h
    split at h
    · rename_i hphase
      cases h
      exact ⟨by simp [hphase, Phase.inFlight], id, fun _ _ => rfl, nofun⟩
    · rename_i hphase
      cases h
      exact ⟨by simp [hphase, Phase.inFlight], id, fun _ _ => rfl, nofun⟩
    · cases h

/-- A call under way is on a socket of its kind, has its waker there if it waits, and shares the waker with no
other. -/
structure Sound (s : State api) : Prop where
  held : ∀ (i : Nat) (call : Call), s.calls[i]? = some call → call.phase.inFlight = true →
    ∃ entry, s.table call.handle = some entry ∧ call.operation.fits entry.socket = true ∧
      (call.phase = .waiting → entry.wakers call.side = some i)
  alone : ∀ (i j : Nat) (c d : Call), s.calls[i]? = some c → s.calls[j]? = some d → c.phase.inFlight = true →
    d.phase.inFlight = true → c.handle = d.handle → c.side = d.side → i = j
  stopping : 0 < s.stopping → s.reason.isSome = true

private theorem sound_initial : Sound (.initial api) where
  held i call h := by simp [State.initial] at h
  alone i j c d h := by simp [State.initial] at h
  stopping h := by simp [State.initial] at h

private theorem getElem?_wake (s : State api) (woken : Nat → Side → Bool) (i : Nat) :
    (s.wake woken).calls[i]? = s.calls[i]?.map (s.woken woken i) := List.getElem?_mapIdx

private theorem woken_handle (s : State api) (woken : Nat → Side → Bool) (i : Nat) (call : Call) :
    (s.woken woken i call).handle = call.handle := by
  unfold State.woken
  split <;> rfl

private theorem woken_operation (s : State api) (woken : Nat → Side → Bool) (i : Nat) (call : Call) :
    (s.woken woken i call).operation = call.operation := by
  unfold State.woken
  split <;> rfl

private theorem woken_inFlight (s : State api) (woken : Nat → Side → Bool) (i : Nat) (call : Call) :
    (s.woken woken i call).phase.inFlight = call.phase.inFlight := by
  unfold State.woken
  split
  · rename_i h
    cases hphase : call.phase <;> simp_all [Phase.isWaiting, Phase.inFlight]
  · rfl

/-- A call that still waits has not been woken. -/
private theorem waiting_of_woken {s : State api} {woken : Nat → Side → Bool} {i : Nat} {call : Call}
    (h : (s.woken woken i call).phase = .waiting) :
    call.phase = .waiting ∧ (s.registered i call = true → woken call.handle call.side = false) := by
  unfold State.woken at h
  split at h
  · cases h
  · rename_i hnot
    refine ⟨h, fun hregistered => ?_⟩
    simpa [h, Phase.isWaiting, hregistered] using hnot

private theorem fits_of_mayBecome {op : Operation} {socket socket' : AnySocket api}
    (h : socket.mayBecome socket' = true) (hfits : op.fits socket = true) : op.fits socket' = true := by
  cases socket <;> cases socket' <;> cases op <;> simp_all [AnySocket.mayBecome, Operation.fits]

/-- A socket that changes stays one for the same calls. -/
private theorem fits_of_fits {op op' : Operation} {socket socket' : AnySocket api} (h : op.fits socket = true)
    (h' : op.fits socket' = true) (hfits : op'.fits socket = true) : op'.fits socket' = true := by
  cases op <;> cases op' <;> cases socket <;> cases socket' <;> simp_all [Operation.fits]

private theorem fits_stop {op : Operation} {socket : AnySocket api} (hfits : op.fits socket = true) :
    op.fits socket.stop = true := by
  cases op <;> cases socket <;> first | rfl | cases hfits

namespace Sound

variable {s : State api}

private theorem registered (h : Sound s) {i : Nat} {call : Call} (hcall : s.calls[i]? = some call)
    (hwaiting : call.phase = .waiting) : s.registered i call = true := by
  obtain ⟨entry, hentry, -, hwaker⟩ := h.held i call hcall (by simp [hwaiting, Phase.inFlight])
  simp [State.registered, hentry, hwaker hwaiting]

/-- Sockets may change and appear as long as the calls under way keep theirs. -/
private theorem of_table (h : Sound s) {table : Nat → Option (Entry api)}
    (htable : ∀ handle entry, s.table handle = some entry → s.busy handle = true →
      ∃ entry', table handle = some entry' ∧ entry'.wakers = entry.wakers ∧
        ∀ op : Operation, op.fits entry.socket = true → op.fits entry'.socket = true) :
    Sound { s with table } where
  held i call hcall hflight := by
    obtain ⟨entry, hentry, hfits, hwaker⟩ := h.held i call hcall hflight
    have hbusy : s.busy call.handle = true :=
      List.any_eq_true.2 ⟨call, List.mem_of_getElem? hcall, by simp [hflight]⟩
    obtain ⟨entry', hentry', hwakers, hfits'⟩ := htable call.handle entry hentry hbusy
    exact ⟨entry', hentry', hfits' _ hfits, fun hwaiting => by rw [hwakers, hwaker hwaiting]⟩
  alone := h.alone
  stopping := h.stopping

private theorem wake (h : Sound s) (woken : Nat → Side → Bool) : Sound (s.wake woken) where
  held i call hcall hflight := by
    rw [getElem?_wake] at hcall
    obtain ⟨c, hc, rfl⟩ := Option.map_eq_some_iff.1 hcall
    rw [woken_inFlight] at hflight
    obtain ⟨entry, hentry, hfits, hwaker⟩ := h.held i c hc hflight
    refine ⟨entry.take (woken c.handle), by simp only [State.wake, woken_handle, hentry, Option.map_some], ?_,
      fun hwaiting => ?_⟩
    · rwa [woken_operation]
    · obtain ⟨hphase, hwoken⟩ := waiting_of_woken hwaiting
      have hkept : woken c.handle c.side = false := hwoken (h.registered hc hphase)
      rw [Call.side, woken_operation]
      exact (if_neg (by simp [hkept])).trans (hwaker hphase)
  alone i j c d hc hd hcflight hdflight hhandle hside := by
    rw [getElem?_wake] at hc hd
    obtain ⟨c, hc', rfl⟩ := Option.map_eq_some_iff.1 hc
    obtain ⟨d, hd', rfl⟩ := Option.map_eq_some_iff.1 hd
    rw [woken_inFlight] at hcflight hdflight
    simp only [woken_handle, Call.side, woken_operation] at hhandle hside
    exact h.alone i j c d hc' hd' hcflight hdflight hhandle hside
  stopping := h.stopping

private theorem stopAll (h : Sound s) : Sound s.stopAll :=
  (h.wake fun _ _ => true).of_table fun _ entry hentry _ =>
    ⟨entry.stop, by rw [hentry]; rfl, rfl, fun _ hfits => fits_stop hfits⟩

/-- A new call, on a socket whose waker no other call uses. -/
private theorem concat (h : Sound s) {handle : Nat} {operation : Operation} {entry : Entry api}
    (hentry : s.table handle = some entry) (hfits : operation.fits entry.socket = true)
    (hfree : ∀ c ∈ s.calls, c.phase.inFlight = true → c.handle = handle → c.side ≠ operation.side) :
    Sound { s with calls := s.calls ++ [⟨handle, operation, .called⟩] } where
  held i c hc hflight := by
    rcases Machine.getElem?_concat_cases hc with ⟨-, rfl⟩ | hc
    · exact ⟨entry, hentry, hfits, nofun⟩
    · exact h.held i c hc hflight
  alone i j c d hc hd hcflight hdflight hhandle hside := by
    rcases Machine.getElem?_concat_cases hc with ⟨hi, rfl⟩ | hc
    · rcases Machine.getElem?_concat_cases hd with ⟨hj, rfl⟩ | hd
      · rw [hi, hj]
      · exact absurd hside.symm (hfree d (List.mem_of_getElem? hd) hdflight hhandle.symm)
    · rcases Machine.getElem?_concat_cases hd with ⟨-, rfl⟩ | hd
      · exact absurd hside (hfree c (List.mem_of_getElem? hc) hcflight hhandle)
      · exact h.alone i j c d hc hd hcflight hdflight hhandle hside
  stopping := h.stopping

/-- The call `i` moves. -/
private theorem act (h : Sound s) {i : Nat} {call : Call} {entry : Entry api} {r : Phase × Entry api}
    (hcall : s.calls[i]? = some call) (hentry : s.table call.handle = some entry) (hr : Advanced i call entry r) :
    Sound { s.put call.handle (some r.2) with calls := s.calls.set i { call with phase := r.1 } } where
  held j c hc hflight := by
    obtain ⟨entry₁, hentry₁, hfits₁, -⟩ := h.held i call hcall hr.inFlight
    cases hentry.symm.trans hentry₁
    rcases Machine.getElem?_set_cases hc with ⟨rfl, rfl⟩ | ⟨hne, hc⟩
    · exact ⟨r.2, s.put_self _ _, hr.fits hfits₁, hr.waiting⟩
    · obtain ⟨entry₂, hentry₂, hfits₂, hwaker⟩ := h.held j c hc hflight
      by_cases hhandle : c.handle = call.handle
      · rw [hhandle, hentry] at hentry₂
        cases hentry₂
        have hside : c.side ≠ call.side := fun hside =>
          hne (h.alone j i c call hc hcall hflight hr.inFlight hhandle hside)
        refine ⟨r.2, hhandle ▸ s.put_self _ _, ?_, fun hwaiting => by rw [hr.other _ hside, hwaker hwaiting]⟩
        exact fits_of_fits hfits₁ (hr.fits hfits₁) hfits₂
      · exact ⟨entry₂, (s.put_ne _ hhandle).trans hentry₂, hfits₂, hwaker⟩
  alone j k c d hc hd hcflight hdflight hhandle hside := by
    -- the call that moves was under way before
    have hold : ∀ (j : Nat) (c : Call), (s.calls.set i { call with phase := r.1 })[j]? = some c →
        c.phase.inFlight = true → ∃ c', s.calls[j]? = some c' ∧ c'.phase.inFlight = true ∧ c'.handle = c.handle ∧
          c'.side = c.side := by
      intro j c hc hflight
      rcases Machine.getElem?_set_cases hc with ⟨rfl, rfl⟩ | ⟨-, hc⟩
      · exact ⟨call, hcall, hr.inFlight, rfl, rfl⟩
      · exact ⟨c, hc, hflight, rfl, rfl⟩
    obtain ⟨c', hc', hcflight', hchandle, hcside⟩ := hold j c hc hcflight
    obtain ⟨d', hd', hdflight', hdhandle, hdside⟩ := hold k d hd hdflight
    exact h.alone j k c' d' hc' hd' hcflight' hdflight' (by rw [hchandle, hdhandle, hhandle])
      (by rw [hcside, hdside, hside])
  stopping := h.stopping

end Sound

private theorem sound_step {s s' : State api} {e : Event api} (h : Sound s) (hstep : step mtu s e = some s') :
    Sound s' := by
  cases e with
  | stop cause =>
    cases hstep
    exact ⟨h.held, h.alone, fun _ => by cases s.reason <;> rfl⟩
  | sweep =>
    simp only [step] at hstep
    split at hstep
    · cases hstep
    · rename_i stopping hstopping
      cases hstep
      exact ⟨h.stopAll.held, h.stopAll.alone, fun _ => h.stopping (by omega)⟩
  | add handle socket =>
    simp only [step] at hstep
    split at hstep
    · rename_i hfree
      cases hstep
      refine h.of_table fun handle' entry hentry _ => ⟨entry, ?_, rfl, fun _ => id⟩
      rw [if_neg (by rintro rfl; rw [hfree] at hentry; cases hentry), hentry]
    · cases hstep
  | remove handle =>
    simp only [step] at hstep
    split at hstep
    · cases hstep
    · rename_i hidle
      cases hstep
      refine h.of_table fun handle' entry hentry hbusy => ⟨entry, ?_, rfl, fun _ => id⟩
      rw [if_neg (by rintro rfl; exact hidle hbusy), hentry]
  | call handle operation =>
    simp only [step] at hstep
    split at hstep
    · rename_i entry hentry
      split at hstep
      · rename_i hguard
        cases hstep
        simp only [Bool.and_eq_true, Bool.not_eq_true', List.any_eq_false, decide_eq_true_eq, not_and] at hguard
        exact h.concat hentry hguard.1 fun c hc hflight hhandle => hguard.2 c hc ⟨hflight, hhandle⟩
      · cases hstep
    · cases hstep
  | act i action =>
    simp only [step] at hstep
    split at hstep
    · rename_i call hcall
      split at hstep
      · rename_i entry hentry
        obtain ⟨r, hr, rfl⟩ := Option.map_eq_some_iff.1 hstep
        exact h.act hcall hentry (advanced_of_advance hr)
      · cases hstep
    · cases hstep
  | device handle socket wakes =>
    simp only [step] at hstep
    split at hstep
    · rename_i entry hentry
      split at hstep
      · rename_i hbecome
        cases hstep
        refine (h.of_table fun handle' entry' hentry' _ => ?_).wake _
        by_cases hhandle : handle' = handle
        · subst hhandle
          cases hentry.symm.trans hentry'
          exact ⟨_, if_pos rfl, rfl, fun op hfits => fits_of_mayBecome hbecome hfits⟩
        · exact ⟨entry', by rw [if_neg hhandle, hentry'], rfl, fun _ => id⟩
      · cases hstep
    · cases hstep

/-! ### What a step does to a call -/

/-- A call after a step. -/
inductive Moved (mtu : Nat) (s : State api) (i : Nat) (call : Call) : Call → Prop where
  | same : Moved mtu s i call call
  | woken (h : call.phase = .waiting) : Moved mtu s i call { call with phase := .called }
  | advanced {entry : Entry api} {action : Action} {r : Phase × Entry api} (hentry : s.table call.handle = some entry)
    (hadvance : advance mtu s.reason.isSome i call entry action = some r) :
    Moved mtu s i call { call with phase := r.1 }

private theorem moved_woken (s t : State api) (woken : Nat → Side → Bool) (i : Nat) (call : Call) :
    Moved mtu s i call (t.woken woken i call) := by
  unfold State.woken
  split
  · rename_i h
    exact .woken (by cases hphase : call.phase <;> simp_all [Phase.isWaiting])
  · exact .same

/-- Every call after a step was there before, or is new. -/
private theorem moved_of_step {s s' : State api} {e : Event api} (hstep : step mtu s e = some s') {i : Nat}
    {call' : Call} (hcall' : s'.calls[i]? = some call') :
    (∃ call, s.calls[i]? = some call ∧ Moved mtu s i call call') ∨ i = s.calls.length ∧ call'.phase = .called := by
  cases e with
  | stop cause =>
    cases hstep
    exact .inl ⟨call', hcall', .same⟩
  | sweep =>
    simp only [step] at hstep
    split at hstep
    · cases hstep
    · cases hstep
      obtain ⟨call, hcall, rfl⟩ := Option.map_eq_some_iff.1 ((getElem?_wake _ _ _).symm.trans hcall')
      exact .inl ⟨call, hcall, moved_woken s s _ i call⟩
  | add handle socket =>
    simp only [step] at hstep
    split at hstep
    · cases hstep
      exact .inl ⟨call', hcall', .same⟩
    · cases hstep
  | remove handle =>
    simp only [step] at hstep
    split at hstep
    · cases hstep
    · cases hstep
      exact .inl ⟨call', hcall', .same⟩
  | call handle operation =>
    simp only [step] at hstep
    split at hstep
    · split at hstep
      · cases hstep
        rcases Machine.getElem?_concat_cases hcall' with ⟨hi, rfl⟩ | hcall
        · exact .inr ⟨hi, rfl⟩
        · exact .inl ⟨call', hcall, .same⟩
      · cases hstep
    · cases hstep
  | act j action =>
    simp only [step] at hstep
    split at hstep
    · rename_i call hcall
      split at hstep
      · rename_i entry hentry
        obtain ⟨r, hr, rfl⟩ := Option.map_eq_some_iff.1 hstep
        rcases Machine.getElem?_set_cases hcall' with ⟨rfl, rfl⟩ | ⟨-, hcall'⟩
        · exact .inl ⟨call, hcall, .advanced hentry hr⟩
        · exact .inl ⟨call', hcall', .same⟩
      · cases hstep
    · cases hstep
  | device handle socket wakes =>
    simp only [step] at hstep
    split at hstep
    · split at hstep
      · cases hstep
        obtain ⟨call, hcall, rfl⟩ := Option.map_eq_some_iff.1 ((getElem?_wake _ _ _).symm.trans hcall')
        exact .inl ⟨call, hcall, moved_woken s _ _ i call⟩
      · cases hstep
    · cases hstep

private theorem reason_step {s s' : State api} {e : Event api} (hstep : step mtu s e = some s') :
    s'.reason = (s.reason <|> e.cause.map Cause.reason) := by
  have hsame : (s.reason <|> none) = s.reason := by cases s.reason <;> rfl
  cases e with
  | stop cause =>
    cases hstep
    rfl
  | sweep | add handle socket | remove handle =>
    simp only [step] at hstep
    split at hstep
    all_goals cases hstep
    exact hsame.symm
  | call handle operation | device handle socket wakes =>
    simp only [step] at hstep
    split at hstep
    · split at hstep
      all_goals cases hstep
      exact hsame.symm
    · cases hstep
  | act i action =>
    simp only [step] at hstep
    split at hstep
    · split at hstep
      · obtain ⟨r, -, rfl⟩ := Option.map_eq_some_iff.1 hstep
        exact hsame.symm
      · cases hstep
    · cases hstep

/-- The first reason stays. -/
private theorem reason_exec {s : State api} {es : List (Event api)}
    (h : Machine.exec (step mtu) (.initial api) es = some s) :
    s.reason = (es.findSome? Event.cause).map Cause.reason := by
  refine Machine.exec_induction_events (P := fun es s => s.reason = (es.findSome? Event.cause).map Cause.reason)
    (fun es s e s' hs hstep => ?_) rfl h
  rw [reason_step hstep, hs, List.findSome?_append]
  cases es.findSome? Event.cause <;> cases e <;> rfl

private theorem isSome_reason_step {s s' : State api} {e : Event api} (hstep : step mtu s e = some s')
    (h : s.reason.isSome = true) : s'.reason = s.reason := by
  obtain ⟨reason, hreason⟩ := Option.isSome_iff_exists.1 h
  rw [reason_step hstep, hreason]
  rfl

/-! ### After the reason is set -/

/-- A call that has been told that the reactor is stopped, if it has been polled. -/
def Refused (call : Call) : Prop :=
  call.phase = .called ∨ call.phase = .dropped ∨ call.phase = .returned call.operation.stopped

private theorem refused_moved {s : State api} {i : Nat} {call call' : Call} (hreason : s.reason.isSome = true)
    (hmoved : Moved mtu s i call call') (h : Refused call) : Refused call' := by
  cases hmoved with
  | same => exact h
  | woken _ => exact .inl rfl
  | @advanced entry action r hentry hadvance =>
    cases action with
    | check =>
      simp only [advance, hreason] at hadvance
      split at hadvance
      · cases hadvance
        exact .inr (.inr rfl)
      · cases hadvance
    | lock | repoll =>
      rcases h with h | h | h <;> simp [advance, h] at hadvance
    | cancel =>
      simp only [advance] at hadvance
      split at hadvance
      · cases hadvance
        exact .inr (.inl rfl)
      · cases hadvance
        exact .inr (.inl rfl)
      · cases hadvance

/-- Every call after the first `n` is refused. -/
structure Late (n : Nat) (s : State api) : Prop where
  reason : s.reason.isSome = true
  refused : ∀ (i : Nat) (call : Call), n ≤ i → s.calls[i]? = some call → Refused call

/-! ### After the sockets are stopped -/

/-- The socket is in the table, and closed. -/
def State.closedAt (s : State api) (handle : Nat) : Prop :=
  ∃ entry, s.table handle = some entry ∧ entry.socket.closed = true

private theorem closed_of_advance {r : Phase × Entry api} (h : advance mtu stopped i call entry action = some r)
    (hclosed : entry.socket.closed = true) : r.2.socket.closed = true := by
  cases action with
  | check | repoll | cancel =>
    simp only [advance] at h
    split at h <;> cases h <;> exact hclosed
  | lock =>
    simp only [advance] at h
    split at h
    · obtain ⟨l, hl, rfl⟩ := Option.map_eq_some_iff.1 h
      rw [l.1.next_socket]
      exact (lock_closed hl hclosed).closed
    · split at h
      · cases h
        rw [Locked.next_socket]
        exact hclosed
      · cases h
    · cases h

private theorem closedAt_wake {s : State api} {handle : Nat} (woken : Nat → Side → Bool) (h : s.closedAt handle) :
    (s.wake woken).closedAt handle := by
  obtain ⟨entry, hentry, hclosed⟩ := h
  exact ⟨entry.take (woken handle), by simp only [State.wake, hentry, Option.map_some], hclosed⟩

/-- A socket that a call is on stays closed. -/
private theorem closedAt_step {s s' : State api} {e : Event api} {handle : Nat} (hstep : step mtu s e = some s')
    (hbusy : s.busy handle = true) (h : s.closedAt handle) : s'.closedAt handle := by
  obtain ⟨entry, hentry, hclosed⟩ := h
  cases e with
  | stop cause =>
    cases hstep
    exact ⟨entry, hentry, hclosed⟩
  | sweep =>
    simp only [step] at hstep
    split at hstep
    · cases hstep
    · cases hstep
      obtain ⟨entry', hentry', -⟩ := closedAt_wake (fun _ _ => true) ⟨entry, hentry, hclosed⟩
      exact ⟨entry'.stop, by simp only [State.stopAll, hentry', Option.map_some], entry'.socket.closed_stop⟩
  | add handle' socket =>
    simp only [step] at hstep
    split at hstep
    · rename_i hfree
      cases hstep
      refine ⟨entry, ?_, hclosed⟩
      rw [State.put_ne _ _ (by rintro rfl; rw [hfree] at hentry; cases hentry), hentry]
    · cases hstep
  | remove handle' =>
    simp only [step] at hstep
    split at hstep
    · cases hstep
    · rename_i hidle
      cases hstep
      refine ⟨entry, ?_, hclosed⟩
      rw [State.put_ne _ _ (by rintro rfl; exact hidle hbusy), hentry]
  | call handle' operation =>
    simp only [step] at hstep
    split at hstep
    · split at hstep
      all_goals cases hstep
      exact ⟨entry, hentry, hclosed⟩
    · cases hstep
  | act i action =>
    simp only [step] at hstep
    split at hstep
    · rename_i call hcall
      split at hstep
      · rename_i entry' hentry'
        obtain ⟨r, hr, rfl⟩ := Option.map_eq_some_iff.1 hstep
        by_cases hhandle : handle = call.handle
        · subst hhandle
          cases hentry.symm.trans hentry'
          exact ⟨r.2, s.put_self _ _, closed_of_advance hr hclosed⟩
        · exact ⟨entry, (s.put_ne _ hhandle).trans hentry, hclosed⟩
      · cases hstep
    · cases hstep
  | device handle' socket wakes =>
    simp only [step] at hstep
    split at hstep
    · rename_i entry' hentry'
      split at hstep
      · rename_i hbecome
        cases hstep
        refine closedAt_wake _ ?_
        by_cases hhandle : handle = handle'
        · subst hhandle
          cases hentry.symm.trans hentry'
          exact ⟨_, s.put_self _ _, AnySocket.closed_of_mayBecome hbecome hclosed⟩
        · exact ⟨entry, (s.put_ne _ hhandle).trans hentry, hclosed⟩
      · cases hstep
    · cases hstep

/-- What may have become of the call `i` since the sockets were stopped in the state `t`. -/
def Survives (t : State api) (i : Nat) (call : Call) : Prop :=
  match call.phase with
  | .called | .dropped => True
  | .checked | .closing => t.calls[i]? = some call
  | .waiting => t.calls[i]? = some { call with phase := .checked } ∧ call.operation.strandable = true
  | .returned outcome => t.calls[i]? = some call ∨ Aftermath call.operation outcome

/-- The states after the sockets were stopped in `t`. -/
structure Swept (t s : State api) : Prop where
  reason : s.reason.isSome = true
  survives : ∀ (i : Nat) (call : Call), s.calls[i]? = some call → Survives t i call
  /-- The sockets of the polls that have seen `is_stopped` false were there when the others were stopped. -/
  closed : ∀ (i : Nat) (call : Call), s.calls[i]? = some call → call.phase.inPoll = true → s.closedAt call.handle

private theorem late_step {n : Nat} {s s' : State api} {e : Event api} (h : Late n s)
    (hstep : step mtu s e = some s') :
    Late n s' where
  reason := by rw [isSome_reason_step hstep h.reason, h.reason]
  refused i call' hi hcall' := by
    rcases moved_of_step hstep hcall' with ⟨call, hcall, hmoved⟩ | ⟨-, hcalled⟩
    · exact refused_moved h.reason hmoved (h.refused i call hi hcall)
    · exact .inl hcalled

/-- The sockets are stopped. -/
private theorem swept_start {t t' : State api} (h : Sound t) (hstep : step mtu t .sweep = some t') : Swept t t' := by
  simp only [step] at hstep
  split at hstep
  · cases hstep
  · rename_i stopping hstopping
    cases hstep
    refine ⟨h.stopping (by omega), fun i call hcall => ?_, fun i call hcall hpoll => ?_⟩
    · obtain ⟨c, hc, rfl⟩ := Option.map_eq_some_iff.1 ((getElem?_wake t _ i).symm.trans hcall)
      by_cases hwaiting : c.phase = .waiting
      · have hwoken : t.woken (fun _ _ => true) i c = { c with phase := .called } := by
          simp [State.woken, hwaiting, Phase.isWaiting, h.registered hc hwaiting]
        rw [hwoken]
        trivial
      · have hsame : t.woken (fun _ _ => true) i c = c :=
          if_neg (by cases hphase : c.phase <;> simp_all [Phase.isWaiting])
        rw [hsame]
        unfold Survives
        split
        · trivial
        · trivial
        · exact hc
        · exact hc
        · exact absurd ‹_› hwaiting
        · exact .inl hc
    · obtain ⟨c, hc, rfl⟩ := Option.map_eq_some_iff.1 ((getElem?_wake t _ i).symm.trans hcall)
      have hflight : c.phase.inFlight = true := by
        rw [← woken_inFlight t (fun _ _ => true) i c]
        cases hphase : (t.woken (fun _ _ => true) i c).phase <;> simp_all [Phase.inPoll, Phase.inFlight]
      obtain ⟨entry, hentry, -, -⟩ := h.held i c hc hflight
      exact ⟨(entry.take fun _ => true).stop, by simp [State.stopAll, State.wake, woken_handle, hentry],
        AnySocket.closed_stop _⟩

/-- Where a call comes to when the reason is set and the socket of a poll under way is closed. -/
structure Ended (call : Call) (phase : Phase) : Prop where
  inPoll : phase.inPoll = false
  waiting : phase = .waiting → call.phase = .checked ∧ call.operation.strandable = true
  returned : ∀ outcome, phase = .returned outcome → Aftermath call.operation outcome

private theorem ended_of_advance {r : Phase × Entry api} (h : advance mtu true i call entry action = some r)
    (hclosed : call.phase.inPoll = true → entry.socket.closed = true) : Ended call r.1 := by
  cases action with
  | check =>
    simp only [advance] at h
    split at h
    · cases h
      refine ⟨rfl, fun hwaiting => (by cases hwaiting), fun outcome houtcome => ?_⟩
      cases houtcome
      exact aftermath_stopped _
    · cases h
  | lock =>
    simp only [advance] at h
    split at h
    · rename_i hphase
      obtain ⟨⟨l, socket⟩, hl, rfl⟩ := Option.map_eq_some_iff.1 h
      have hon := lock_closed hl (hclosed (by simp [hphase, Phase.inPoll]))
      cases l with
      | ready outcome =>
        refine ⟨rfl, fun hwaiting => (by cases hwaiting), fun outcome' houtcome => ?_⟩
        cases houtcome
        exact hon.ready outcome rfl
      | pending => exact ⟨rfl, fun _ => ⟨hphase, hon.pending rfl⟩, fun _ houtcome => (by cases houtcome)⟩
      | unlocked => exact absurd rfl hon.unlocked
    · rename_i hphase
      split at h
      · rename_i tcp hshutdown htcp
        cases h
        rw [settle_closed (by simpa [htcp, AnySocket.closed] using hclosed (by simp [hphase, Phase.inPoll]))]
        refine ⟨rfl, fun hwaiting => (by cases hwaiting), fun outcome houtcome => ?_⟩
        cases houtcome
        rw [hshutdown]
        rfl
      · cases h
    · cases h
  | repoll =>
    simp only [advance] at h
    split at h
    · cases h
      exact ⟨rfl, fun hwaiting => (by cases hwaiting), fun _ houtcome => (by cases houtcome)⟩
    · cases h
  | cancel =>
    simp only [advance] at h
    split at h
    · cases h
      exact ⟨rfl, fun hwaiting => (by cases hwaiting), fun _ houtcome => (by cases houtcome)⟩
    · cases h
      exact ⟨rfl, fun hwaiting => (by cases hwaiting), fun _ houtcome => (by cases houtcome)⟩
    · cases h

private theorem Swept.ended {t s : State api} (h : Swept t s) {i : Nat} {call : Call}
    (hcall : s.calls[i]? = some call)
    {entry : Entry api} {action : Action} {r : Phase × Entry api} (hentry : s.table call.handle = some entry)
    (hadvance : advance mtu s.reason.isSome i call entry action = some r) : Ended call r.1 := by
  rw [h.reason] at hadvance
  refine ended_of_advance hadvance fun hpoll => ?_
  obtain ⟨entry', hentry', hclosed⟩ := h.closed i call hcall hpoll
  cases hentry.symm.trans hentry'
  exact hclosed

private theorem survives_of_ended {t : State api} {i : Nat} {call : Call} {phase : Phase} (hold : Survives t i call)
    (h : Ended call phase) : Survives t i { call with phase } := by
  cases phase with
  | called | dropped => trivial
  | checked | closing => exact absurd h.inPoll (by simp [Phase.inPoll])
  | waiting =>
    obtain ⟨hphase, hstrandable⟩ := h.waiting rfl
    simp only [Survives, hphase] at hold
    refine ⟨?_, hstrandable⟩
    rw [hold, ← hphase]
  | returned outcome => exact .inr (h.returned outcome rfl)

private theorem swept_step {t s s' : State api} {e : Event api} (h : Swept t s) (hstep : step mtu s e = some s') :
    Swept t s' where
  reason := by rw [isSome_reason_step hstep h.reason, h.reason]
  survives i call' hcall' := by
    rcases moved_of_step hstep hcall' with ⟨call, hcall, hmoved⟩ | ⟨-, hcalled⟩
    · have hold := h.survives i call hcall
      cases hmoved with
      | same => exact hold
      | woken _ => trivial
      | advanced hentry hadvance => exact survives_of_ended hold (h.ended hcall hentry hadvance)
    · simp [Survives, hcalled]
  closed i call' hcall' hpoll := by
    rcases moved_of_step hstep hcall' with ⟨call, hcall, hmoved⟩ | ⟨-, hcalled⟩
    · cases hmoved with
      | same =>
        refine closedAt_step hstep (List.any_eq_true.2 ⟨call', List.mem_of_getElem? hcall, ?_⟩)
          (h.closed i call' hcall hpoll)
        cases hphase : call'.phase <;> simp_all [Phase.inPoll, Phase.inFlight]
      | woken _ => cases hpoll
      | advanced hentry hadvance => exact absurd hpoll (by simp [(h.ended hcall hentry hadvance).inPoll])
    · simp [hcalled, Phase.inPoll] at hpoll

/-- The netstack stops: the reason is set within the first part of a run, and `stop_sockets` stops the sockets
after the second.  The reason is the first one given.  A call made after it is refused.  A call that waits in the
end is a flush or a `recv_from` that was between its check of `is_stopped` and the lock when the sockets were
stopped.  A call that returns after that fails, unless it is a read, a flush or a shutdown. -/
theorem stop_releases {first second third : List (Event api)} {u t t' s : State api}
    (hfirst : Machine.exec (step mtu) (.initial api) first = some u) (hreason : u.reason.isSome = true)
    (hsecond : Machine.exec (step mtu) u second = some t) (hsweep : step mtu t .sweep = some t')
    (hthird : Machine.exec (step mtu) t' third = some s) :
    s.reason = (first.findSome? Event.cause).map Cause.reason ∧
    ∀ (i : Nat) (call : Call), s.calls[i]? = some call →
      (u.calls.length ≤ i → Refused call) ∧
      (call.phase = .waiting → call.operation.strandable = true ∧
        t.calls[i]? = some { call with phase := .checked }) ∧
      ∀ outcome, call.phase = .returned outcome → t.calls[i]? = some call ∨ Aftermath call.operation outcome := by
  have hrest : Machine.exec (step mtu) u (second ++ .sweep :: third) = some s :=
    Machine.exec_append.2 ⟨t, hsecond, Machine.exec_cons.2 ⟨t', hsweep, hthird⟩⟩
  have hsound : Sound t := Machine.exec_induction (fun _ _ _ => sound_step)
    sound_initial (Machine.exec_append.2 ⟨u, hfirst, hsecond⟩)
  have hswept : Swept t s := Machine.exec_induction (fun _ _ _ => swept_step) (swept_start hsound hsweep) hthird
  have hlate : Late u.calls.length s := by
    refine Machine.exec_induction (fun _ _ _ => late_step) ⟨hreason, fun i call hi hcall => ?_⟩ hrest
    rw [List.getElem?_eq_none hi] at hcall
    cases hcall
  have hsame : s.reason = u.reason := by
    refine (Machine.exec_induction (P := fun s => s.reason = u.reason) (fun s e s' hs hstep => ?_) rfl hrest)
    rw [isSome_reason_step hstep (by rw [hs, hreason]), hs]
  refine ⟨hsame.trans (reason_exec hfirst), fun i call hcall => ⟨fun hi => hlate.refused i call hi hcall, ?_, ?_⟩⟩
  · intro hwaiting
    have hsurvives := hswept.survives i call hcall
    simp only [Survives, hwaiting] at hsurvives
    exact hsurvives.symm
  · intro outcome hreturned
    have hsurvives := hswept.survives i call hcall
    simpa only [Survives, hreturned] using hsurvives

/-- Sockets whose transmit buffers are never full, with the datagrams that have arrived at a bound UDP socket. -/
def referenceSockets : Sockets where
  tcp := reference
  Tx := List UInt8
  sendQueue := List.length
  isFull _ := false
  enqueue tx buf := (buf.length, tx ++ buf)
  Udp := Option (List (List UInt8 × SocketAddr))
  isOpen := Option.isSome
  close _ := none
  payloadSendCapacity _ := 65535
  sendSlice u _ _ := (if u.isSome then .ok () else .error .unaddressable, u)
  recvSlice u n :=
    match u with
    | some ((bytes, origin) :: rest) =>
      (if n < bytes.length then .error .truncated else .ok (bytes, origin), some rest)
    | u => (.error .exhausted, u)
  sendText _ := "unaddressable"
  recvText _ := "truncated"
  isOpen_close _ := rfl
  isOpen_sendSlice _ _ _ := rfl
  isOpen_recvSlice u n := by rcases u with _ | _ | _ <;> rfl
  sendSlice_unbound u buf target h := by simp [h]
  recvSlice_unbound u n h := by
    rcases u with _ | _ | _
    · rfl
    · rfl
    · cases h

/-- A read waits, and a flush is between its check and the lock, when the netstack is shut down. -/
def shutdownDuringFlush : List (Event referenceSockets) :=
  [.add 0 (.tcp ⟨⟨.established, []⟩, [1]⟩), .call 0 (.tcp (.read 4)), .act 0 .check, .act 0 .lock,
    .call 0 (.tcp .flush), .act 1 .check, .stop .shutdown]

/-- The read is woken and fails; the flush registers its waker on the closed socket, where nobody will call it. -/
theorem stop_releases_flush :
    ∃ s : State referenceSockets,
      Machine.exec (step 1280) (.initial referenceSockets)
        (shutdownDuringFlush ++ .sweep :: [.act 0 .check, .act 1 .lock]) = some s ∧
      s.reason = some "IP netstack 已主动停止" ∧ s.calls.map Call.phase = [.returned (.error (.io reactorStopped)),
        .waiting] ∧
      ∀ call, s.calls[1]? = some call → call.phase = .waiting → call.operation.strandable = true :=
  ⟨_, rfl,
    (@stop_releases referenceSockets 1280 shutdownDuringFlush [] [.act 0 .check, .act 1 .lock] _ _ _ _ rfl rfl rfl rfl
      rfl).1, rfl, fun call hcall hwaiting =>
    ((@stop_releases referenceSockets 1280 shutdownDuringFlush []
      [.act 0 .check, .act 1 .lock] _ _ _ _ rfl rfl rfl rfl
      rfl).2 1 call hcall).2.1 hwaiting |>.1⟩

end WarpSocks.Netstack.Stop
