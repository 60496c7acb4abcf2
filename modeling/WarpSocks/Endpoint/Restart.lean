import WarpSocks.Endpoint.State

/-!
# Endpoint state across restarts

In a run in which every save succeeds, the file always holds the state in memory (`Agrees.file`), so a reload only
drops entries that have expired.  What is observed is therefore a function of the calls alone: an endpoint is in
cooldown if the latest call on it is a `mark_cooldown` whose seconds are not over, and the last good endpoint is
the one of the latest `record_success` (`endpoint_state_observed`).
-/

namespace WarpSocks.Endpoint

open JsonFileEndpointStore

/-- The calls of a run. -/
inductive Call where
  | load
  | recordSuccess (endpoint : String)
  | markCooldown (endpoint : String) (duration : Duration)
  deriving DecidableEq

/-- The endpoint a call is about. -/
def Call.endpoint? : Call → Option String
  | .load => none
  | .recordSuccess endpoint => some endpoint
  | .markCooldown endpoint _ => some endpoint

/-- The endpoint of a `record_success`. -/
def Call.success? : Call → Option String
  | .recordSuccess endpoint => some endpoint
  | _ => none

/-- The current store and the file. -/
structure World (json : SerdeJson) where
  store : JsonFileEndpointStore
  file : Option json.Text

variable (json : SerdeJson) (path parent : String)

/-- `load` with a save that succeeds; a failed load would leave the store there was. -/
def World.load (now : Nat) (store : JsonFileEndpointStore) (file : Option json.Text) : World json :=
  match JsonFileEndpointStore.load json path parent true now .done file with
  | (.ok store, file) => ⟨store, file⟩
  | (.error _, file) => ⟨store, file⟩

/-- A call at the second `now`, with a save that succeeds. -/
def World.call (w : World json) (now : Nat) : Call → World json
  | .load => World.load json path parent now w.store w.file
  | .recordSuccess endpoint =>
    let (_, store, file) := w.store.recordSuccess json endpoint .done w.file
    ⟨store, file⟩
  | .markCooldown endpoint duration =>
    let (_, store, file) := w.store.markCooldown json endpoint duration now .done w.file
    ⟨store, file⟩

/-- A run: a first load at `start`, without a file, and then the calls, each with its second. -/
def World.run (start : Nat) (calls : List (Nat × Call)) : World json :=
  calls.foldl (fun w c => w.call json path parent c.1 c.2)
    (World.load json path parent start ⟨path, parent, .empty⟩ none)

/-- The latest call on an endpoint. -/
def latest (endpoint : String) (calls : List (Nat × Call)) : Option (Nat × Call) :=
  (calls.filter fun c => c.2.endpoint? = some endpoint).getLast?

/-- The endpoint of the latest `record_success`. -/
def latestSuccess (calls : List (Nat × Call)) : Option String := (calls.filterMap fun c => c.2.success?).getLast?

/-- The clock never goes back, from the first load to the observation. -/
def Clock (start : Nat) (calls : List (Nat × Call)) (now : Nat) : Prop :=
  (start :: calls.map Prod.fst ++ [now]).Pairwise (· ≤ ·)

/-- The calls name endpoints. -/
def Named (calls : List (Nat × Call)) : Prop := ∀ c ∈ calls, c.2.endpoint? ≠ some ""

/-- No end of a cooldown is too large for a `u64`. -/
def Fit (calls : List (Nat × Call)) : Prop :=
  ∀ since endpoint duration, (since, .markCooldown endpoint duration) ∈ calls → since + duration.secs < 2 ^ 64

/-- The latest call on the endpoint is a `mark_cooldown`, and its end, a sum of `u64`s, has not come. -/
def CoolsDown (calls : List (Nat × Call)) (now : Nat) (endpoint : String) : Prop :=
  ∃ since duration, latest endpoint calls = some (since, .markCooldown endpoint duration) ∧
    now < (since + duration.secs) % 2 ^ 64

section Calls

variable (calls : List (Nat × Call)) (now : Nat)

private theorem latest_append_of_eq {endpoint : String} {c : Call} (h : c.endpoint? = some endpoint) :
    latest endpoint (calls ++ [(now, c)]) = some (now, c) := by
  simp [latest, List.filter_append, h]

private theorem latest_append_of_ne {endpoint : String} {c : Call} (h : c.endpoint? ≠ some endpoint) :
    latest endpoint (calls ++ [(now, c)]) = latest endpoint calls := by
  simp [latest, List.filter_append, h]

private theorem coolsDown_append_of_ne {endpoint : String} {c : Call} (t : Nat) (h : c.endpoint? ≠ some endpoint) :
    CoolsDown (calls ++ [(now, c)]) t endpoint ↔ CoolsDown calls t endpoint := by
  unfold CoolsDown
  rw [latest_append_of_ne calls now h]

private theorem latestSuccess_append (c : Call) :
    latestSuccess (calls ++ [(now, c)]) = c.success?.or (latestSuccess calls) := by
  cases h : c.success? <;> simp [latestSuccess, List.filterMap_append, h]

/-- Loads are no calls on an endpoint. -/
private theorem latest_filter_ne_load (endpoint : String) :
    latest endpoint (calls.filter fun c => c.2 ≠ .load) = latest endpoint calls := by
  unfold latest
  rw [List.filter_filter]
  congr 2
  funext ⟨_, c⟩
  cases c <;> simp [Call.endpoint?]

private theorem latestSuccess_filter_ne_load :
    latestSuccess (calls.filter fun c => c.2 ≠ .load) = latestSuccess calls := by
  unfold latestSuccess
  rw [List.filterMap_filter]
  congr 2
  funext ⟨_, c⟩
  cases c <;> simp [Call.success?]

private theorem latestSuccess_ne_empty (h : Named calls) : latestSuccess calls ≠ some "" := by
  intro hs
  obtain ⟨⟨at', c⟩, hc, hs⟩ := List.mem_filterMap.1 (List.mem_of_getLast? hs)
  apply h _ hc
  cases c with
  | recordSuccess endpoint => exact hs
  | load => nomatch hs
  | markCooldown _ _ => nomatch hs

end Calls

/-- What the next load finds. -/
def contents (file : Option json.Text) : State := (file.bind json.fromSlice).getD .empty

/-- What a load keeps. -/
def State.prune (now : Nat) (s : State) : State :=
  { s with cooldowns := s.cooldowns.retain fun _ till => decide (now < till) }

private theorem contents_save (s : State) : contents json (some (json.toVecPretty s)) = s := by
  simp [contents, json.round_trip]

/-- A prune leaves the same entries in memory and in the file: if it does not write, nothing has expired. -/
private theorem pruneCooldowns_spec (store : JsonFileEndpointStore) (forceSave : Bool) (now : Nat)
    (file : Option json.Text) (h : forceSave = false → contents json file = store.state) :
    ∃ file', store.pruneCooldowns json forceSave now .done file =
        (.ok (), { store with state := store.state.prune now }, file') ∧
      contents json file' = store.state.prune now := by
  unfold pruneCooldowns
  by_cases hw : (forceSave || store.state.cooldowns.size != (store.state.prune now).cooldowns.size) = true
  · exact ⟨_, if_pos hw, contents_save json _⟩
  · refine ⟨file, if_neg hw, ?_⟩
    obtain ⟨hf, hs⟩ : forceSave = false ∧ store.state.cooldowns.size = (store.state.prune now).cooldowns.size := by
      simpa using hw
    rw [h hf]
    unfold State.prune at hs ⊢
    rw [Finmap.retain_eq_self_of_size hs.symm]

/-- After a load both the memory and the file hold the entries that have not expired. -/
private theorem World.load_spec (now : Nat) (store : JsonFileEndpointStore) (file : Option json.Text) :
    (World.load json path parent now store file).store.state = (contents json file).prune now ∧
      contents json (World.load json path parent now store file).file = (contents json file).prune now := by
  obtain ⟨file', hp, hf⟩ := pruneCooldowns_spec json ⟨path, parent, contents json file⟩ (!file.isSome) now file
    (fun _ => rfl)
  have hl : JsonFileEndpointStore.load json path parent true now .done file =
      (.ok ⟨path, parent, (contents json file).prune now⟩, file') := by
    unfold JsonFileEndpointStore.load
    cases file with
    | none =>
      have hp : pruneCooldowns json ⟨path, parent, .empty⟩ true now .done none = _ := hp
      simp only [Option.isSome_none, Bool.not_true, Bool.and_false, Bool.false_eq_true, ↓reduceIte, Bool.not_false,
        hp]
    | some data =>
      have hp : pruneCooldowns json ⟨path, parent, (json.fromSlice data).getD .empty⟩ false now .done (some data) =
          _ := hp
      simp only [Option.isSome_some, Bool.not_true, Bool.and_false, Bool.false_eq_true, ↓reduceIte, hp]
  rw [World.load, hl]
  exact ⟨rfl, hf⟩

/-- The state agrees with the calls made so far, for every observation from `now` on, and so does the file. -/
structure Agrees (calls : List (Nat × Call)) (now : Nat) (w : World json) : Prop where
  file : contents json w.file = w.store.state
  lastGood : w.store.state.lastGoodEndpoint = (latestSuccess calls).getD ""
  cooling : ∀ t, now ≤ t → ∀ endpoint,
    (∃ till, w.store.state.cooldowns.lookup endpoint = some till ∧ t < till) ↔ CoolsDown calls t endpoint

variable {json path parent}

theorem Agrees.mono {calls : List (Nat × Call)} {now now' : Nat} {w : World json} (h : Agrees json calls now w)
    (hn : now ≤ now') : Agrees json calls now' w :=
  ⟨h.file, h.lastGood, fun t ht => h.cooling t (Nat.le_trans hn ht)⟩

/-- A load drops only entries that no later observation sees. -/
private theorem Agrees.load {calls : List (Nat × Call)} {now : Nat} {w : World json} (h : Agrees json calls now w) :
    Agrees json (calls ++ [(now, .load)]) now (w.call json path parent now .load) := by
  obtain ⟨hstate, hfile⟩ := World.load_spec json path parent now w.store w.file
  rw [h.file] at hstate hfile
  refine ⟨hfile.trans hstate.symm, ?_, ?_⟩
  · rw [latestSuccess_append]
    exact (congrArg State.lastGoodEndpoint hstate).trans h.lastGood
  · intro t ht endpoint
    rw [coolsDown_append_of_ne calls now t (by simp [Call.endpoint?]), ← h.cooling t ht endpoint]
    have hlookup : (w.call json path parent now .load).store.state.cooldowns.lookup endpoint =
        (w.store.state.cooldowns.lookup endpoint).filter fun till => decide (now < till) :=
      (congrArg (fun s : State => s.cooldowns.lookup endpoint) hstate).trans (Finmap.lookup_retain _ _ _)
    rw [hlookup]
    constructor
    · rintro ⟨till, htill, hlt⟩
      exact ⟨till, (Option.filter_eq_some_iff.1 htill).1, hlt⟩
    · rintro ⟨till, htill, hlt⟩
      refine ⟨till, Option.filter_eq_some_iff.2 ⟨htill, ?_⟩, hlt⟩
      exact decide_eq_true (Nat.lt_of_le_of_lt ht hlt)

private theorem Agrees.recordSuccess {calls : List (Nat × Call)} {now : Nat} {w : World json}
    (h : Agrees json calls now w) (e : String) :
    Agrees json (calls ++ [(now, .recordSuccess e)]) now (w.call json path parent now (.recordSuccess e)) := by
  refine ⟨contents_save json _, ?_, ?_⟩
  · rw [latestSuccess_append]
    rfl
  · intro t ht endpoint
    by_cases he : e = endpoint
    · subst he
      unfold CoolsDown
      rw [latest_append_of_eq calls now rfl]
      simp [World.call, JsonFileEndpointStore.recordSuccess, Finmap.lookup_erase]
    · rw [coolsDown_append_of_ne calls now t (by simpa [Call.endpoint?] using he), ← h.cooling t ht endpoint]
      have hl := Finmap.lookup_erase_ne (s := w.store.state.cooldowns) (Ne.symm he)
      simp only [World.call, JsonFileEndpointStore.recordSuccess, hl]

private theorem Agrees.markCooldown {calls : List (Nat × Call)} {now : Nat} {w : World json}
    (h : Agrees json calls now w) (e : String) (duration : Duration) :
    Agrees json (calls ++ [(now, .markCooldown e duration)]) now
      (w.call json path parent now (.markCooldown e duration)) := by
  refine ⟨contents_save json _, ?_, ?_⟩
  · rw [latestSuccess_append]
    exact h.lastGood
  · intro t ht endpoint
    by_cases he : e = endpoint
    · subst he
      unfold CoolsDown
      rw [latest_append_of_eq calls now rfl]
      simp [World.call, JsonFileEndpointStore.markCooldown, Finmap.lookup_insert]
    · rw [coolsDown_append_of_ne calls now t (by simpa [Call.endpoint?] using he), ← h.cooling t ht endpoint]
      have hl := Finmap.lookup_insert_of_ne (b := (now + duration.secs) % 2 ^ 64) w.store.state.cooldowns (Ne.symm he)
      simp only [World.call, JsonFileEndpointStore.markCooldown, hl]

theorem Agrees.call {calls : List (Nat × Call)} {now : Nat} {w : World json} (h : Agrees json calls now w)
    (c : Call) :
    Agrees json (calls ++ [(now, c)]) now (w.call json path parent now c) := by
  cases c with
  | load => exact h.load
  | recordSuccess e => exact h.recordSuccess e
  | markCooldown e duration => exact h.markCooldown e duration

variable (json path parent)

/-- Induction on the calls from the last one: at each call the state agrees with the calls before it, at its
second. -/
private theorem agrees_run {start : Nat} {calls : List (Nat × Call)} {now : Nat} (hclock : Clock start calls now) :
    Agrees json calls now (World.run json path parent start calls) := by
  induction calls using List.reverseRecOn generalizing now with
  | nil =>
    obtain ⟨hstate, hfile⟩ := World.load_spec json path parent start ⟨path, parent, .empty⟩ none
    refine ⟨hfile.trans hstate.symm, congrArg State.lastGoodEndpoint hstate, fun t _ endpoint => ?_⟩
    constructor
    · rintro ⟨till, htill, -⟩
      nomatch htill
    · rintro ⟨since, duration, hs, -⟩
      nomatch hs
  | append_singleton calls c ih =>
    obtain ⟨hbefore, hle⟩ : Clock start calls c.1 ∧ c.1 ≤ now := by
      unfold Clock at hclock ⊢
      rw [List.map_append, ← List.cons_append, List.pairwise_append] at hclock
      exact ⟨hclock.1, hclock.2.2 c.1 (by simp) now (by simp)⟩
    rw [World.run, List.foldl_append]
    exact ((ih hbefore).call c.2).mono hle

theorem lastGood_of_agrees {calls : List (Nat × Call)} {now : Nat} {w : World json} (h : Agrees json calls now w)
    (hnamed : Named calls) : w.store.lastGood = latestSuccess calls := by
  unfold lastGood
  rw [h.lastGood]
  cases hs : latestSuccess calls with
  | none => rfl
  | some endpoint =>
    have hne : endpoint ≠ "" := fun he => latestSuccess_ne_empty calls hnamed (he ▸ hs)
    simpa [String.isEmpty_iff] using hne

/-- Without an overflow the end of a cooldown is the sum of the second and the seconds. -/
private theorem coolsDown_iff_of_fit {calls : List (Nat × Call)} (hfit : Fit calls) (now : Nat) (endpoint : String) :
    CoolsDown calls now endpoint ↔
      ∃ since duration, latest endpoint calls = some (since, .markCooldown endpoint duration) ∧
        now < since + duration.secs := by
  have hmod {since : Nat} {duration : Duration}
      (h : latest endpoint calls = some (since, .markCooldown endpoint duration)) :
      (since + duration.secs) % 2 ^ 64 = since + duration.secs :=
    Nat.mod_eq_of_lt (hfit _ _ _ (List.mem_filter.1 (List.mem_of_getLast? h)).1)
  unfold CoolsDown
  constructor
  · rintro ⟨since, duration, hlatest, hlt⟩
    rw [hmod hlatest] at hlt
    exact ⟨since, duration, hlatest, hlt⟩
  · rintro ⟨since, duration, hlatest, hlt⟩
    refine ⟨since, duration, hlatest, ?_⟩
    rw [hmod hlatest]
    exact hlt

/-- In a run whose saves succeed, with a clock that does not go back and without an overflow, an endpoint is in
cooldown iff the latest call on it marked it and the whole seconds of the duration are not over, and the last good
endpoint is that of the latest success.  Two runs that differ in their reloads only are told apart by no
observation. -/
theorem endpoint_state_observed {start : Nat} {calls : List (Nat × Call)} {now : Nat} (hclock : Clock start calls now)
    (hnamed : Named calls) (hfit : Fit calls) :
    let w := World.run json path parent start calls
    (∀ endpoint, w.store.isCoolingDown now endpoint ↔
        ∃ since duration, latest endpoint calls = some (since, .markCooldown endpoint duration) ∧
          now < since + duration.secs) ∧
      w.store.lastGood = latestSuccess calls ∧
      ∀ calls', Clock start calls' now →
        (calls'.filter fun c => c.2 ≠ .load) = (calls.filter fun c => c.2 ≠ .load) →
        let w' := World.run json path parent start calls'
        (∀ endpoint, w'.store.cooldownRemaining now endpoint = w.store.cooldownRemaining now endpoint) ∧
          w'.store.lastGood = w.store.lastGood := by
  intro w
  have h : ∀ t, now ≤ t → Agrees json calls t w := fun t ht => (agrees_run json path parent hclock).mono ht
  have hcool : ∀ t, now ≤ t → ∀ endpoint, w.store.isCoolingDown t endpoint ↔ CoolsDown calls t endpoint :=
    fun t ht endpoint => (isCoolingDown_iff _ _ _).trans ((h t ht).cooling t (Nat.le_refl t) endpoint)
  refine ⟨fun endpoint => (hcool now (Nat.le_refl now) endpoint).trans (coolsDown_iff_of_fit hfit now endpoint),
    lastGood_of_agrees json (h now (Nat.le_refl now)) hnamed, ?_⟩
  intro calls' hclock' hfilter w'
  have h' := agrees_run json path parent hclock'
  constructor
  · intro endpoint
    apply cooldownRemaining_eq_of_iff
    intro t ht
    have hlatest : latest endpoint calls' = latest endpoint calls := by
      rw [← latest_filter_ne_load calls', hfilter, latest_filter_ne_load]
    rw [hcool t ht, isCoolingDown_iff, h'.cooling t ht, CoolsDown, CoolsDown, hlatest]
  · have hsuccess : latestSuccess calls' = latestSuccess calls := by
      rw [← latestSuccess_filter_ne_load calls', hfilter, latestSuccess_filter_ne_load]
    unfold lastGood
    rw [h'.lastGood, (h now (Nat.le_refl now)).lastGood, hsuccess]

/-- One endpoint in cooldown across a reload, and another one that answered last. -/
theorem endpoint_state_observed_after_reload :
    let w := World.run .plain "/state.json" "/" 0
      [(1, .markCooldown "a" (.fromSecs 30)), (2, .load), (3, .recordSuccess "b")]
    w.store.isCoolingDown 30 "a" ∧ w.store.lastGood = some "b" := by
  have hfit : Fit [(1, .markCooldown "a" (.fromSecs 30)), (2, .load), (3, .recordSuccess "b")] := by
    intro since endpoint duration h
    obtain ⟨rfl, -, rfl⟩ : since = 1 ∧ endpoint = "a" ∧ duration = .fromSecs 30 := by simpa using h
    decide
  obtain ⟨hcool, hgood, -⟩ := @endpoint_state_observed .plain "/state.json" "/" 0
    [(1, .markCooldown "a" (.fromSecs 30)), (2, .load), (3, .recordSuccess "b")] 30
    (by simp [Clock]) (by simp [Named, Call.endpoint?]) hfit
  exact ⟨(hcool "a").2 ⟨1, .fromSecs 30, rfl, by decide⟩, hgood⟩

/-- Half a second is no whole second: marked for half a second, the endpoint is not in cooldown in the same
second. -/
theorem half_second_no_cooldown :
    let half : Duration := ⟨0, 500000000, by decide⟩
    let calls := [(5, Call.markCooldown "a" half)]
    Clock 5 calls 5 ∧ Named calls ∧ Fit calls ∧ latest "a" calls = some (5, .markCooldown "a" half) ∧
      5 * 1000000000 < 5 * 1000000000 + half.asNanos ∧
      (World.run .plain "/state.json" "/" 5 calls).store.isCoolingDown 5 "a" = false := by
  intro half calls
  refine ⟨by simp [Clock, calls], by simp [Named, Call.endpoint?, calls], fun since endpoint duration h => ?_, rfl,
    by decide, ?_⟩
  · obtain ⟨rfl, -, rfl⟩ : since = 5 ∧ endpoint = "a" ∧ duration = half := by simpa [calls] using h
    decide
  · decide

end WarpSocks.Endpoint
