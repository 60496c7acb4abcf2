import WarpSocks.Endpoint.Normalize
import WarpSocks.Supervisor.Recover

/-!
# WireGuard endpoints over a whole run

Every round reads the endpoint state from its file, plans, and writes what it finds; a withdrawal marks the
endpoint it has lost; a process that is launched again finds what the last one has written.  If the saves succeed
and the clock does not go back, what a round does depends on the history of the endpoints alone: the plan is that
of `historyPlan`, the candidates are tried in its order until one is verified, and each outcome goes into the
history (`prepareWireguard_history`).
-/

namespace WarpSocks.Supervisor

open Endpoint (SerdeJson JsonFileEndpointStore SaveOutcome Call candidatePool planCandidates lastFirst latest
  latestSuccess CoolsDown Agrees Named)

/-! ### The plan of a history -/

/-- The latest call on the endpoint has marked it, and the mark has not run out. -/
def coolsDown (calls : List (Nat × Call)) (now : Nat) (endpoint : String) : Bool :=
  match latest endpoint calls with
  | some (since, .markCooldown _ duration) => decide (now < (since + duration.secs) % 2 ^ 64)
  | _ => false

/-- The candidates in the order in which they should be tried: those that have not failed lately, then the others,
and in both groups the last one that was verified first. -/
def historyPlan (pool : List String) (calls : List (Nat × Call)) (clock : String → Nat) : List String :=
  let candidates := lastFirst (latestSuccess calls) pool.eraseDups
  candidates.filter (fun e => !coolsDown calls (clock e) e) ++ candidates.filter fun e => coolsDown calls (clock e) e

private theorem coolsDown_iff (calls : List (Nat × Call)) (now : Nat) (endpoint : String) :
    coolsDown calls now endpoint = true ↔ CoolsDown calls now endpoint := by
  unfold coolsDown CoolsDown
  constructor
  · intro h
    split at h
    · rename_i since e duration hlatest
      have hmem := List.mem_of_getLast? hlatest
      obtain ⟨-, hendpoint⟩ := List.mem_filter.1 hmem
      have he : e = endpoint := by simpa [Call.endpoint?] using hendpoint
      subst he
      exact ⟨since, duration, hlatest, of_decide_eq_true h⟩
    · cases h
  · rintro ⟨since, duration, hlatest, hlt⟩
    rw [hlatest]
    exact decide_eq_true hlt

variable {json : SerdeJson}

/-- A plan from a state that agrees with the history is the plan of the history. -/
private theorem planCandidates_eq_historyPlan {calls : List (Nat × Call)} {now : Nat} {w : Endpoint.World json}
    (h : Agrees json calls now w) (hnamed : Named calls) (pool : List String) {clock : String → Nat}
    (hclock : ∀ e, now ≤ clock e) : planCandidates pool w.store clock = historyPlan pool calls clock := by
  have hcooling : ∀ e, w.store.isCoolingDown (clock e) e = coolsDown calls (clock e) e := by
    intro e
    rw [Bool.eq_iff_iff, JsonFileEndpointStore.isCoolingDown_iff, coolsDown_iff]
    exact h.cooling (clock e) (hclock e) e
  rw [Endpoint.planCandidates_eq, Endpoint.lastGood_of_agrees json h hnamed]
  simp only [hcooling]
  rfl

/-! ### One round -/

/-- A world that agrees with the calls from the last of them on. -/
def Recorded (calls : List (Nat × Call)) (w : Endpoint.World json) : Prop :=
  ∃ now, (∀ t, (∀ c ∈ calls, c.1 ≤ t) → now ≤ t) ∧ Agrees json calls now w

private theorem Recorded.agrees {calls : List (Nat × Call)} {w : Endpoint.World json} (h : Recorded calls w) {t : Nat}
    (ht : ∀ c ∈ calls, c.1 ≤ t) : Agrees json calls t w := by
  obtain ⟨now, hnow, hagrees⟩ := h
  exact hagrees.mono (hnow t ht)

private theorem Recorded.call {calls : List (Nat × Call)} {w : Endpoint.World json} (h : Recorded calls w) {t : Nat}
    (ht : ∀ c ∈ calls, c.1 ≤ t) (path parent : String) (c : Call) :
    Recorded (calls ++ [(t, c)]) (w.call json path parent t c) :=
  ⟨t, fun _ hall => hall (t, c) (by simp), (h.agrees ht).call c⟩

private theorem recorded_nil (path parent : String) :
    Recorded [] (⟨⟨path, parent, .empty⟩, none⟩ : Endpoint.World json) := by
  refine ⟨0, fun t _ => Nat.zero_le t, rfl, rfl, fun t _ endpoint => ?_⟩
  constructor
  · rintro ⟨till, htill, -⟩
    nomatch htill
  · rintro ⟨since, duration, hlatest, -⟩
    nomatch hlatest

variable {O E : Type} {config : Config} {input : WgInput O}

/-- The attempt on the candidate `i` is over and has failed. -/
def Fails (input : WgInput O) (i : Nat) : Prop := ∃ a e, input.attempt i = some a ∧ tryWgCandidate a = .error e

/-- What is recorded for the candidates that have failed, from the attempt `i` on. -/
def marks (config : Config) (input : WgInput O) (i : Nat) (failed : List String) : List (Nat × Call) :=
  (failed.zipIdx i).map fun (endpoint, i) => ((input.store i).now,
    .markCooldown endpoint config.startupEndpointCooldown)

/-- How the candidates are tried from the attempt `i` on: in their order, until one of them is verified or the
budget ends. -/
inductive Tried (config : Config) (input : WgInput O) (i : Nat) (plan : List String)
    (calls calls' : List (Nat × Call)) :
    Prepared (O × String) → Prop where
  | exhausted (hfails : ∀ j < plan.length, Fails input (i + j))
    (hcalls : calls' = calls ++ marks config input i plan) :
    Tried config input i plan calls calls' (.failed ["本轮出口候选探测均失败"])
  | cut (k : Nat) (hk : k < plan.length) (hfails : ∀ j < k, Fails input (i + j)) (hcut : input.attempt (i + k) = none)
    (hcalls : calls' = calls ++ marks config input i (plan.take k)) : Tried config input i plan calls calls' .cut
  | verified (k : Nat) (a : WgAttempt O) (o : O) (endpoint : String) (hfails : ∀ j < k, Fails input (i + j))
    (hattempt : input.attempt (i + k) = some a) (htry : tryWgCandidate a = .ok o) (hk : plan[k]? = some endpoint)
    (hcalls : calls' = calls ++ marks config input i (plan.take k) ++
      [((input.store (i + k)).now, .recordSuccess endpoint)]) :
    Tried config input i plan calls calls' (.ready (o, endpoint))

/-- A candidate that fails goes before the others. -/
private theorem Tried.cons {i : Nat} {endpoint : String} {plan : List String} {calls calls' : List (Nat × Call)}
    {result : Prepared (O × String)} (hfirst : Fails input i)
    (h : Tried config input (i + 1) plan
      (calls ++ [((input.store i).now, .markCooldown endpoint config.startupEndpointCooldown)]) calls' result) :
    Tried config input i (endpoint :: plan) calls calls' result := by
  have hindex (j : Nat) : i + 1 + j = i + (j + 1) := by omega
  have hall {k : Nat} (hfails : ∀ j < k, Fails input (i + 1 + j)) : ∀ j < k + 1, Fails input (i + j) := by
    intro j hj
    cases j with
    | zero => exact hfirst
    | succ j => exact hindex j ▸ hfails j (Nat.lt_of_succ_lt_succ hj)
  -- the mark of the first one is the first of the marks
  have hmarks (failed : List String) : calls ++
      [((input.store i).now, .markCooldown endpoint config.startupEndpointCooldown)] ++
      marks config input (i + 1) failed = calls ++ marks config input i (endpoint :: failed) := by
    rw [List.append_assoc]
    rfl
  cases h with
  | exhausted hfails hcalls => exact .exhausted (hall hfails) (hcalls.trans (hmarks plan))
  | cut k hk hfails hcut hcalls =>
    exact .cut (k + 1) (Nat.succ_lt_succ hk) (hall hfails) (hindex k ▸ hcut) (hcalls.trans (hmarks _))
  | verified k a o e hfails hattempt htry hk hcalls =>
    rw [hmarks, hindex] at hcalls
    exact .verified (k + 1) a o e (hall hfails) (hindex k ▸ hattempt) htry hk hcalls

private theorem tryCandidates_tried (config : Config) (hsaved : ∀ i, (input.store i).save = .done)
    (hclock : ∀ i, (input.store i).now ≤ (input.store (i + 1)).now) (candidates : List String) (i : Nat)
    (w : Endpoint.World json) (calls : List (Nat × Call)) (hrecorded : Recorded calls w)
    (hnow : ∀ c ∈ calls, c.1 ≤ (input.store i).now) :
    ∃ w' calls' result, tryCandidates json config input i candidates w.store ⟨w.file, calls⟩ =
      (⟨w'.file, calls'⟩, result) ∧ Recorded calls' w' ∧ Tried config input i candidates calls calls' result := by
  induction candidates generalizing i w calls with
  | nil => exact ⟨w, calls, _, rfl, hrecorded, .exhausted (fun _ hj => nomatch hj) (List.append_nil _).symm⟩
  | cons endpoint candidates ih =>
    cases hattempt : input.attempt i with
    | none =>
      refine ⟨w, calls, .cut, by rw [tryCandidates, hattempt], hrecorded, ?_⟩
      exact .cut 0 (Nat.zero_lt_succ _) (fun _ hj => nomatch hj) hattempt (List.append_nil _).symm
    | some a =>
      cases htry : tryWgCandidate a with
      | ok o =>
        refine ⟨w.call json config.endpointStateFile config.stateDir (input.store i).now (.recordSuccess endpoint), _,
          .ready (o, endpoint), ?_, hrecorded.call hnow _ _ (.recordSuccess endpoint), ?_⟩
        · rw [tryCandidates, hattempt]
          simp only [htry, hsaved i]
          rfl
        · exact .verified 0 a o endpoint (fun _ hj => nomatch hj) hattempt htry rfl (by simp [marks])
      | error e =>
        let call := Call.markCooldown endpoint config.startupEndpointCooldown
        have hnow' : ∀ c ∈ calls ++ [((input.store i).now, call)], c.1 ≤ (input.store (i + 1)).now := by
          intro c hc
          rcases List.mem_append.1 hc with hold | hnew
          · exact Nat.le_trans (hnow c hold) (hclock i)
          · cases List.mem_singleton.1 hnew
            exact hclock i
        obtain ⟨w', calls', result, hrun, hrecorded', htried⟩ :=
          ih (i + 1) _ _ (hrecorded.call hnow config.endpointStateFile config.stateDir call) hnow'
        refine ⟨w', calls', result, ?_, hrecorded', htried.cons ⟨a, e, hattempt, htry⟩⟩
        rw [tryCandidates, hattempt]
        simp only [htry, hsaved i]
        exact hrun

/-- A load whose save succeeds. -/
private theorem load_eq_call (w : Endpoint.World json) (path parent : String) (now : Nat) :
    JsonFileEndpointStore.load json path parent true now .done w.file =
      (.ok (w.call json path parent now .load).store, (w.call json path parent now .load).file) := by
  have hprune (store : JsonFileEndpointStore) (force : Bool) :
      (store.pruneCooldowns json force now .done w.file).1 = .ok () := by
    unfold JsonFileEndpointStore.pruneCooldowns
    dsimp only
    split <;> rfl
  have hok : ∃ store file, JsonFileEndpointStore.load json path parent true now .done w.file = (.ok store, file) := by
    unfold JsonFileEndpointStore.load
    simp only [Bool.not_true, Bool.and_false, Bool.false_eq_true, if_false]
    split
    · exact ⟨_, _, rfl⟩
    · rename_i hfailed
      nomatch (hprune _ _).symm.trans (congrArg Prod.fst hfailed)
  obtain ⟨store, file, hload⟩ := hok
  simp only [Endpoint.World.call, Endpoint.World.load, hload]

/-- A load is no call on an endpoint. -/
private theorem historyPlan_load (pool : List String) (calls : List (Nat × Call)) (now : Nat) (clock : String → Nat) :
    historyPlan pool (calls ++ [(now, .load)]) clock = historyPlan pool calls clock := by
  have hlatest (e : String) : latest e (calls ++ [(now, .load)]) = latest e calls := by
    simp [latest, List.filter_append, Call.endpoint?]
  have hsuccess : latestSuccess (calls ++ [(now, .load)]) = latestSuccess calls := by
    simp [latestSuccess, List.filterMap_append, Call.success?]
  simp only [historyPlan, coolsDown, hlatest, hsuccess]

private theorem Named.append {calls more : List (Nat × Call)} (h : Named calls) (h' : Named more) :
    Named (calls ++ more) :=
  fun c hc => (List.mem_append.1 hc).elim (h c) (h' c)

private theorem named_singleton {c : Call} (h : c.endpoint? ≠ some "") (now : Nat) : Named [(now, c)] := by
  intro c' hc'
  cases List.mem_singleton.1 hc'
  exact h

private theorem named_load (now : Nat) : Named [(now, Call.load)] := named_singleton (by simp [Call.endpoint?]) now

/-- The saves of a preparation succeed, and its clock does not go back. -/
structure Timely (calls : List (Nat × Call)) (input : WgInput O) : Prop where
  readable : input.readable = true
  saved : input.load.save = .done ∧ ∀ i, (input.store i).save = .done
  since : ∀ c ∈ calls, c.1 ≤ input.load.now
  plan : ∀ e, input.load.now ≤ input.clock e
  first : input.load.now ≤ (input.store 0).now
  clock : ∀ i, (input.store i).now ≤ (input.store (i + 1)).now

private theorem prepareWireguard_tried (config : Config) {w : Endpoint.World json} {calls : List (Nat × Call)}
    (hrecorded : Recorded calls w) (hnamed : Named calls) (htimely : Timely calls input)
    (haccount : input.account = some (.ok ())) :
    ∃ w' calls' result, prepareWireguard json config input ⟨w.file, calls⟩ = (⟨w'.file, calls'⟩, result) ∧
      Recorded calls' w' ∧
      Tried config input 0 (historyPlan (candidatePool config.endpointCandidates) calls input.clock)
        (calls ++ [(input.load.now, .load)]) calls' result := by
  let w₁ := w.call json config.endpointStateFile config.stateDir input.load.now .load
  have hload : JsonFileEndpointStore.load json config.endpointStateFile config.stateDir input.readable input.load.now
      input.load.save w.file = (.ok w₁.store, w₁.file) := by
    rw [htimely.readable, htimely.saved.1]
    exact load_eq_call w _ _ _
  have hrecorded₁ : Recorded (calls ++ [(input.load.now, .load)]) w₁ := hrecorded.call htimely.since _ _ .load
  have hbound {t : Nat} (ht : input.load.now ≤ t) : ∀ c ∈ calls ++ [(input.load.now, Call.load)], c.1 ≤ t := by
    intro c hc
    rcases List.mem_append.1 hc with hold | hnew
    · exact Nat.le_trans (htimely.since c hold) ht
    · cases List.mem_singleton.1 hnew
      exact ht
  have hnamed₁ : Named (calls ++ [(input.load.now, Call.load)]) :=
    Named.append hnamed (named_load _)
  have hplan : planCandidates (candidatePool config.endpointCandidates) w₁.store input.clock =
      historyPlan (candidatePool config.endpointCandidates) calls input.clock := by
    rw [planCandidates_eq_historyPlan (hrecorded₁.agrees (hbound (Nat.le_refl _))) hnamed₁ _ htimely.plan,
      historyPlan_load]
  have hne : (planCandidates (candidatePool config.endpointCandidates) w₁.store input.clock).isEmpty = false := by
    rw [List.isEmpty_eq_false_iff]
    exact Endpoint.planCandidates_ne_nil _ _ _
  obtain ⟨w', calls', result, hrun, hrecorded', htried⟩ := tryCandidates_tried config htimely.saved.2 htimely.clock
    (historyPlan (candidatePool config.endpointCandidates) calls input.clock) 0 w₁ _ hrecorded₁ (hbound htimely.first)
  refine ⟨w', calls', result, ?_, hrecorded', htried⟩
  rw [prepareWireguard, haccount]
  simp only [hload, hne, Bool.false_eq_true, if_false]
  rw [hplan]
  exact hrun

/-! ### Runs -/

private theorem ne_empty_of_mem_candidatePool {csv endpoint : String} (h : endpoint ∈ candidatePool csv) :
    endpoint ≠ "" := by
  unfold candidatePool at h
  simp only [Endpoint.dedupPreserveOrder_eq] at h
  split at h
  · rintro rfl
    revert h
    decide
  · obtain ⟨raw, -, hraw⟩ := List.mem_filterMap.1 (List.mem_eraseDups.1 h)
    obtain ⟨host, port, n, -, -, -, rfl⟩ := Endpoint.normalizeEndpoint_eq_some_iff.1 hraw
    intro hempty
    have := congrArg String.toList hempty
    rw [Endpoint.toList_formatEndpoint] at this
    simp at this

private theorem historyPlan_perm (pool : List String) (calls : List (Nat × Call)) (clock : String → Nat) :
    (historyPlan pool calls clock).Perm pool.eraseDups :=
  ((List.perm_append_comm).trans (List.filter_append_perm _ _)).trans (Endpoint.lastFirst_perm _ _)

private theorem ne_empty_of_mem_historyPlan {csv endpoint : String} {calls : List (Nat × Call)} {clock : String → Nat}
    (h : endpoint ∈ historyPlan (candidatePool csv) calls clock) : endpoint ≠ "" :=
  ne_empty_of_mem_candidatePool (List.mem_eraseDups.1 ((historyPlan_perm _ _ _).mem_iff.1 h))

private theorem named_marks {failed : List String} (hfailed : ∀ e ∈ failed, e ≠ "") (i : Nat) :
    Named (marks config input i failed) := by
  intro c hc
  obtain ⟨⟨e, j⟩, hmem, rfl⟩ := List.mem_map.1 hc
  have he : e ∈ failed := List.fst_mem_of_mem_zipIdx hmem
  simpa [Call.endpoint?] using hfailed e he

/-- What the candidates leave in the history names endpoints, and so does the result. -/
private theorem Tried.named {i : Nat} {plan : List String} {calls calls' : List (Nat × Call)}
    {result : Prepared (O × String)}
    (h : Tried config input i plan calls calls' result) (hplan : ∀ e ∈ plan, e ≠ "") (hnamed : Named calls) :
    Named calls' ∧ ∀ o endpoint, result = .ready (o, endpoint) → endpoint ≠ "" := by
  cases h with
  | exhausted _ hcalls =>
    subst hcalls
    exact ⟨Named.append hnamed (named_marks hplan i), fun _ _ h => nomatch h⟩
  | cut k _ _ _ hcalls =>
    subst hcalls
    exact ⟨Named.append hnamed (named_marks (fun e he => hplan e (List.mem_of_mem_take he)) i),
      fun _ _ h => nomatch h⟩
  | verified k a o endpoint _ _ _ hk hcalls =>
    subst hcalls
    have hendpoint := hplan endpoint (List.mem_of_getElem? hk)
    refine ⟨Named.append (Named.append hnamed (named_marks (fun e he => hplan e (List.mem_of_mem_take he)) i))
      (named_singleton (by simpa [Call.endpoint?] using hendpoint) _), fun o' endpoint' heq => ?_⟩
    cases heq
    exact hendpoint

/-- The file agrees with the history. -/
structure Kept (disk : Disk json) : Prop where
  recorded : ∃ w : Endpoint.World json, w.file = disk.file ∧ Recorded disk.calls w
  named : Named disk.calls

private theorem prepareWireguard_kept (config : Config) {disk : Disk json} (h : Kept disk)
    (htimely : Timely disk.calls input) :
    Kept (prepareWireguard json config input disk).1 ∧
      ∀ o endpoint, (prepareWireguard json config input disk).2 = .ready (o, endpoint) → endpoint ≠ "" := by
  obtain ⟨⟨w, hfile, hrecorded⟩, hnamed⟩ := h
  obtain ⟨file, calls⟩ := disk
  subst hfile
  cases haccount : input.account with
  | none =>
    rw [prepareWireguard, haccount]
    exact ⟨⟨⟨w, rfl, hrecorded⟩, hnamed⟩, fun _ _ h => nomatch h⟩
  | some result =>
    cases result with
    | error e =>
      rw [prepareWireguard, haccount]
      exact ⟨⟨⟨w, rfl, hrecorded⟩, hnamed⟩, fun _ _ h => nomatch h⟩
    | ok u =>
      obtain ⟨w', calls', result, hrun, hrecorded', htried⟩ :=
        prepareWireguard_tried config hrecorded hnamed htimely haccount
      obtain ⟨hnamed', hendpoint⟩ := htried.named (fun e => ne_empty_of_mem_historyPlan)
        (Named.append hnamed (named_load _))
      rw [hrun]
      exact ⟨⟨⟨w', rfl, hrecorded'⟩, hnamed'⟩, hendpoint⟩

private theorem prepareBase_kept (config : Config) {disk : Disk json} {input : BaseInput O} (h : Kept disk)
    (htimely : Timely disk.calls input.wg) :
    Kept (prepareBase json config input disk).1 ∧
      ∀ o endpoint, (prepareBase json config input disk).2 = .ready (o, some endpoint) → endpoint ≠ "" := by
  obtain ⟨hkept, hendpoint⟩ := prepareWireguard_kept config h htimely
  have hfallback : ∀ o endpoint, (prepareWireguard json config input.wg disk).2.map (Prod.map id some) =
      .ready (o, some endpoint) → endpoint ≠ "" := by
    intro o endpoint hready
    obtain ⟨⟨o', e'⟩, hready, heq⟩ := Prepared.map_eq_ready hready
    cases heq
    exact hendpoint o' endpoint hready
  unfold prepareBase
  dsimp only
  split
  · split
    · exact ⟨h, fun _ _ h => by cases h⟩
    · split
      · exact ⟨h, fun _ _ h => by cases h⟩
      · exact ⟨hkept, hfallback⟩
  · exact ⟨hkept, hfallback⟩

private theorem prepare_kept (config : Config) (country : Option String) {disk : Disk json} {input : Input O E}
    (candidates : Option (CachedCandidates E)) (h : Kept disk) (htimely : Timely disk.calls input.base.wg) :
    Kept (prepare json config country input disk candidates).1 ∧
      ∀ o endpoint, (prepare json config country input disk candidates).2.2 = .ready (o, some endpoint) →
        endpoint ≠ "" := by
  obtain ⟨hkept, hendpoint⟩ := prepareBase_kept config h htimely
  unfold prepare
  split
  · rename_i hbase
    rw [hbase] at hkept
    exact ⟨hkept, fun _ _ h => nomatch h⟩
  · rename_i hbase
    rw [hbase] at hkept
    exact ⟨hkept, fun _ _ h => nomatch h⟩
  · rename_i hbase
    rw [hbase] at hkept
    exact ⟨hkept, fun _ _ h => nomatch h⟩
  · rename_i disk' base endpoint hbase
    rw [hbase] at hkept hendpoint
    split
    · exact ⟨hkept, hendpoint⟩
    · refine ⟨hkept, fun o e hready => ?_⟩
      obtain ⟨o', -, heq⟩ := Prepared.map_eq_ready hready
      cases heq
      exact hendpoint base e rfl

private theorem blame_kept {disk : Disk json} {endpoint : String} {load mark : StoreInput} (h : Kept disk)
    (hendpoint : endpoint ≠ "")
    (hsaved : load.save = .done ∧ mark.save = .done) (hload : ∀ c ∈ disk.calls, c.1 ≤ load.now)
    (hmark : load.now ≤ mark.now) :
    Kept (State.blame config disk endpoint true load mark) := by
  obtain ⟨⟨w, hfile, hrecorded⟩, hnamed⟩ := h
  obtain ⟨file, calls⟩ := disk
  subst hfile
  let w₁ := w.call json config.endpointStateFile config.stateDir load.now .load
  have hbound : ∀ c ∈ calls ++ [(load.now, Call.load)], c.1 ≤ mark.now := by
    intro c hc
    rcases List.mem_append.1 hc with hold | hnew
    · exact Nat.le_trans (hload c hold) hmark
    · cases List.mem_singleton.1 hnew
      exact hmark
  have hblame : State.blame config ⟨w.file, calls⟩ endpoint true load mark =
      ⟨(w₁.call json config.endpointStateFile config.stateDir mark.now
        (.markCooldown endpoint config.startupEndpointCooldown)).file,
        calls ++ [(load.now, .load)] ++ [(mark.now, .markCooldown endpoint config.startupEndpointCooldown)]⟩ := by
    unfold State.blame
    rw [hsaved.1, hsaved.2, load_eq_call]
    rfl
  rw [hblame]
  exact ⟨⟨_, rfl, (hrecorded.call hload _ _ .load).call hbound _ _ _⟩,
    Named.append (Named.append hnamed (named_load _))
      (named_singleton (by simpa [Call.endpoint?] using hendpoint) _)⟩

/-- The endpoint of the egress that the supervisor has to do with. -/
def Phase.endpoint? : Phase O → Option String
  | ready _ endpoint | watching _ endpoint _ | withdrawn endpoint => endpoint
  | blaming endpoint => some endpoint
  | _ => none

/-- The saves around an event succeed, and the clock does not go back. -/
def Event.Timely (calls : List (Nat × Call)) : Event O E → Prop
  | .prepared input => Supervisor.Timely calls input.base.wg
  | .blamed readable load mark =>
    readable = true ∧ (load.save = .done ∧ mark.save = .done) ∧ (∀ c ∈ calls, c.1 ≤ load.now) ∧ load.now ≤ mark.now
  | _ => True

/-- A run in which that is always so. -/
def TimelyRun (config : Config) (country : Option String) (start : State json O E) (es : List (Event O E)) : Prop :=
  ∀ front e back s, es = front ++ e :: back → Machine.exec (State.step config country) start front = some s →
    e.Timely s.disk.calls

/-- A process that is launched for the first time: there is no endpoint state. -/
def State.first (json : SerdeJson) (O E : Type) (heartbeat : String) : State json O E := .launch heartbeat ⟨none, []⟩

structure Tracked (s : State json O E) : Prop where
  kept : Kept s.disk
  endpoint : ∀ endpoint, s.phase.endpoint? = some endpoint → endpoint ≠ ""

private theorem Tracked.step {country : Option String} {s s' : State json O E} {e : Event O E} (h : Tracked s)
    (htimely : e.Timely s.disk.calls) (hstep : s.step config country e = some s') : Tracked s' := by
  cases e with
  | invalidated result =>
    simp only [State.step] at hstep
    split at hstep
    · cases hstep
      exact ⟨h.kept, fun _ he => by cases he⟩
    · cases hstep
      exact ⟨h.kept, fun _ he => by cases he⟩
    · cases hstep
      exact ⟨h.kept, fun _ he => by cases he⟩
    · cases hstep
      exact ⟨h.kept, fun _ he => by cases he⟩
    · rename_i endpoint hphase
      cases hstep
      refine ⟨h.kept, fun e he => ?_⟩
      cases country with
      | some country => cases he
      | none =>
        cases endpoint with
        | none => cases he
        | some endpoint => exact h.endpoint e (by rw [hphase]; exact he)
    · cases hstep
      exact ⟨h.kept, fun _ he => by cases he⟩
    · cases hstep
  | prepared input =>
    simp only [State.step] at hstep
    split at hstep
    · cases hstep
      obtain ⟨hkept, hendpoint⟩ := prepare_kept config country s.candidates h.kept htimely
      rcases hprepare : prepare json config country input s.disk s.candidates with
        ⟨disk, candidates, ⟨o, endpoint⟩ | error | _ | _⟩
      · rw [hprepare] at hkept hendpoint
        refine ⟨hkept, fun e he => hendpoint o e ?_⟩
        rw [show endpoint = some e from he]
      all_goals
        rw [hprepare] at hkept
        exact ⟨hkept, fun _ he => by cases he⟩
    · cases hstep
  | recorded now written =>
    simp only [State.step] at hstep
    split at hstep
    · rename_i hphase
      cases hstep
      exact ⟨h.kept, fun e he => h.endpoint e (by rw [hphase]; exact he)⟩
    · cases hstep
  | watched event written =>
    simp only [State.step] at hstep
    split at hstep
    · rename_i hphase
      split at hstep
      · cases hstep
        exact ⟨h.kept, fun e he => h.endpoint e (by rw [hphase]; exact he)⟩
      · cases hstep
        exact ⟨h.kept, fun e he => h.endpoint e (by rw [hphase]; exact he)⟩
    · cases hstep
  | blamed readable load mark =>
    simp only [State.step] at hstep
    split at hstep
    · rename_i endpoint hphase
      cases hstep
      obtain ⟨rfl, hsaved, hload, hmark⟩ := htimely
      exact ⟨blame_kept h.kept (h.endpoint endpoint (by rw [hphase]; rfl)) hsaved hload hmark,
        fun _ he => by cases he⟩
    · cases hstep
  | delayed millis =>
    simp only [State.step] at hstep
    split at hstep
    · obtain ⟨-, heq⟩ := Option.ite_none_right_eq_some.1 hstep
      cases heq
      exact ⟨h.kept, fun _ he => by cases he⟩
    · cases hstep
  | woken =>
    simp only [State.step] at hstep
    split at hstep
    · cases hstep
      exact ⟨h.kept, fun _ he => by cases he⟩
    · cases hstep
  | relaunched =>
    cases hstep
    exact ⟨h.kept, fun _ he => by cases he⟩

/-- Behind any run from a first start, with launches in between, the file agrees with the history. -/
private theorem kept_of_run {country : Option String} {heartbeat : String} {es : List (Event O E)}
    {s : State json O E} (htimely : TimelyRun config country (.first json O E heartbeat) es)
    (h : Machine.exec (State.step config country) (.first json O E heartbeat) es = some s) : Kept s.disk := by
  have hfirst : Tracked (.first json O E heartbeat) :=
    ⟨⟨⟨_, rfl, recorded_nil "" ""⟩, fun _ hc => nomatch hc⟩, fun _ he => nomatch he⟩
  suffices htracked : TimelyRun config country (.first json O E heartbeat) es → Tracked s from (htracked htimely).kept
  refine Machine.exec_induction_run (P := fun es s => TimelyRun config country (.first json O E heartbeat) es →
    Tracked s) (fun es s e s' hrun ih hstep htimely => ?_) (fun _ => hfirst) h
  have hbefore : TimelyRun config country (.first json O E heartbeat) es :=
    fun front e' back t heq => htimely front e' (back ++ [e]) t (by rw [heq, List.append_assoc]; rfl)
  exact (ih hbefore).step (htimely es e [] s rfl hrun) hstep

/-- In every run from a first start in which the saves succeed and the clock does not go back, whatever process is
killed: a round of `prepare_wireguard` tries each candidate at most once, in the order that the history of the
attempts and the withdrawals gives, until one is verified; and each attempt goes into the history. -/
theorem prepareWireguard_history (json : SerdeJson) (config : Config) (country : Option String) (heartbeat : String)
    (es : List (Event O E)) (s : State json O E) (htimely : TimelyRun config country (.first json O E heartbeat) es)
    (h : Machine.exec (State.step config country) (.first json O E heartbeat) es = some s) (input : WgInput O)
    (hinput : Timely s.disk.calls input) (haccount : input.account = some (.ok ())) :
    let pool := candidatePool config.endpointCandidates
    let plan := historyPlan pool s.disk.calls input.clock
    plan.Perm pool.eraseDups ∧
    ∃ disk result, prepareWireguard json config input s.disk = (disk, result) ∧
      Tried config input 0 plan (s.disk.calls ++ [(input.load.now, .load)]) disk.calls result := by
  intro pool plan
  refine ⟨historyPlan_perm _ _ _, ?_⟩
  obtain ⟨⟨w, hfile, hrecorded⟩, hnamed⟩ := kept_of_run htimely h
  obtain ⟨w', calls', result, hrun, -, htried⟩ := prepareWireguard_tried config hrecorded hnamed hinput haccount
  refine ⟨⟨w'.file, calls'⟩, result, ?_, htried⟩
  rw [← hrun, hfile]

private theorem timelyRun_nil (s : State json O E) (country : Option String) : TimelyRun config country s [] := by
  intro front e back t heq
  simp at heq

/-- A run that is timely from its first event on. -/
private theorem timelyRun_cons {s : State json O E} {e : Event O E} {es : List (Event O E)} {country : Option String}
    (he : e.Timely s.disk.calls) (hes : ∀ s', s.step config country e = some s' → TimelyRun config country s' es) :
    TimelyRun config country s (e :: es) := by
  intro front e' back t heq ht
  cases front with
  | nil =>
    cases heq
    cases ht
    exact he
  | cons first front =>
    cases heq
    obtain ⟨s', hs', ht⟩ := Machine.exec_cons.1 ht
    exact hes s' hs' front e' back t rfl ht

/-- A round in which the first candidate fails and the second one is verified. -/
private theorem tried_second {config : Config} {input : WgInput O} {bad good : WgAttempt O} {o : O} {e : Chain}
    {first second : String} {calls calls' : List (Nat × Call)} {result : Prepared (O × String)}
    (hbad : input.attempt 0 = some bad ∧ tryWgCandidate bad = .error e)
    (hgood : input.attempt 1 = some good ∧ tryWgCandidate good = .ok o)
    (h : Tried config input 0 [first, second] calls calls' result) :
    result = .ready (o, second) ∧ calls' = calls ++
      [((input.store 0).now, .markCooldown first config.startupEndpointCooldown),
      ((input.store 1).now, .recordSuccess second)] := by
  have hone : ¬Fails input 1 := by
    rintro ⟨a, e, ha, he⟩
    rw [hgood.1] at ha
    cases ha
    rw [hgood.2] at he
    nomatch he
  cases h with
  | exhausted hfails => exact (hone (hfails 1 (by simp))).elim
  | cut k hk _ hcut =>
    match k, hk with
    | 0, _ => exact nomatch hbad.1.symm.trans hcut
    | 1, _ => exact nomatch hgood.1.symm.trans hcut
  | verified k a o' endpoint hfails hattempt htry hk hcalls =>
    match k with
    | 0 =>
      cases hbad.1.symm.trans hattempt
      exact nomatch hbad.2.symm.trans htry
    | 1 =>
      cases hgood.1.symm.trans hattempt
      cases hgood.2.symm.trans htry
      cases hk
      exact ⟨rfl, by rw [hcalls, List.append_assoc]; rfl⟩
    | k + 2 => nomatch hk

/-- The process is killed behind a first round in which one candidate has failed and the other one was verified:
the next round begins with that one, and the other one is cooling down. -/
theorem prepareWireguard_history_second_round :
    let config : Config := ⟨false, "1.1.1.1:500, 2.2.2.2:500", "/data/endpoint.json", "/data", .fromSecs 600,
      ⟨.fromSecs 10, .fromSecs 5, 2⟩⟩
    let bad : WgAttempt Nat := ⟨.ok (), .error ["timeout"], [], .ok ()⟩
    let good : WgAttempt Nat := ⟨.ok (), .ok 7, [.ok ()], .ok ()⟩
    let input (now : Nat) : WgInput Nat := ⟨some (.ok ()), true, ⟨now, .done⟩, fun _ => now,
      fun i => if i = 0 then some bad else some good, fun i => ⟨now + i, .done⟩⟩
    let region : RegionInput Nat Unit := ⟨none, 0, none, 0, ⟨List.range, fun _ => .refl _⟩, fun _ _ => none⟩
    let es : List (Event Nat Unit) :=
      [.invalidated (.ok ()), .invalidated (.ok ()), .prepared ⟨⟨none, input 5⟩, region⟩,
      .relaunched, .invalidated (.ok ()), .invalidated (.ok ())]
    ∃ s : State .plain Nat Unit, Machine.exec (State.step config none) (.first .plain Nat Unit "") es = some s ∧
      historyPlan (candidatePool config.endpointCandidates) s.disk.calls (input 9).clock =
        ["2.2.2.2:500", "1.1.1.1:500"] ∧
      ∃ disk result, prepareWireguard .plain config (input 9) s.disk = (disk, result) ∧
        Tried config (input 9) 0 ["2.2.2.2:500", "1.1.1.1:500"] (s.disk.calls ++ [(9, .load)]) disk.calls result := by
  intro config bad good input region es
  have htimely (now : Nat) {calls : List (Nat × Call)} (hsince : ∀ c ∈ calls, c.1 ≤ now) : Timely calls (input now) :=
    ⟨rfl, ⟨rfl, fun _ => rfl⟩, hsince, fun _ => Nat.le_refl now, Nat.le_refl now, fun i => Nat.le_succ (now + i)⟩
  have hpool : candidatePool config.endpointCandidates = ["1.1.1.1:500", "2.2.2.2:500"] := by decide +kernel
  have hnone : Recorded [] (⟨⟨"", "", .empty⟩, none⟩ : Endpoint.World .plain) := recorded_nil "" ""
  obtain ⟨w, calls, result, hfirst, -, htried⟩ := prepareWireguard_tried config hnone (fun _ hc => nomatch hc)
    (htimely 5 fun _ hc => nomatch hc) rfl
  have hplan : historyPlan ["1.1.1.1:500", "2.2.2.2:500"] [] (input 5).clock = ["1.1.1.1:500", "2.2.2.2:500"] := by
    decide
  rw [hpool, hplan] at htried
  obtain ⟨rfl, rfl⟩ := tried_second ⟨rfl, rfl⟩ ⟨rfl, rfl⟩ htried
  let calls : List (Nat × Call) :=
    [(5, .load), (5, .markCooldown "1.1.1.1:500" (.fromSecs 600)), (6, .recordSuccess "2.2.2.2:500")]
  let preparing (disk : Disk .plain) : State .plain Nat Unit :=
    ⟨.preparing, 0, Health.invalidate, .new none, disk, none⟩
  have hprepare : prepare .plain config none ⟨⟨none, input 5⟩, region⟩ ⟨none, []⟩ none =
      (⟨w.file, calls⟩, none, .ready (7, some "2.2.2.2:500")) := by
    unfold prepare prepareBase
    simp only [hfirst]
    rfl
  have hstep : (preparing ⟨none, []⟩).step config none (.prepared ⟨⟨none, input 5⟩, region⟩) =
      some ((preparing ⟨none, []⟩).afterPrepare (⟨w.file, calls⟩, none, .ready (7, some "2.2.2.2:500"))) :=
    congrArg (fun outcome => some ((preparing ⟨none, []⟩).afterPrepare outcome)) hprepare
  have hstart : Machine.exec (State.step config none) (.first .plain Nat Unit "") (es.take 2) =
      some (preparing ⟨none, []⟩) := rfl
  have hrun : Machine.exec (State.step config none) (.first .plain Nat Unit "") es =
      some (preparing ⟨w.file, calls⟩) :=
    Machine.exec_append.2 ⟨_, hstart, Machine.exec_cons.2 ⟨_, hstep, rfl⟩⟩
  have hes : TimelyRun config none (.first .plain Nat Unit "") es := by
    refine timelyRun_cons trivial fun s₁ h₁ => timelyRun_cons trivial fun s₂ h₂ => ?_
    cases h₁
    cases h₂
    refine timelyRun_cons (htimely 5 fun _ hc => nomatch hc) fun s₃ _ => timelyRun_cons trivial fun s₄ _ => ?_
    exact timelyRun_cons trivial fun s₅ _ => timelyRun_cons trivial fun s₆ _ => timelyRun_nil s₆ none
  have hnext : historyPlan (candidatePool config.endpointCandidates) calls (input 9).clock =
      ["2.2.2.2:500", "1.1.1.1:500"] := by
    rw [hpool]
    decide
  have hsince : ∀ c ∈ calls, c.1 ≤ 9 := by decide
  have hround := (prepareWireguard_history .plain config none "" es _ hes hrun (input 9) (htimely 9 hsince) rfl).2
  exact ⟨_, hrun, hnext, hnext ▸ hround⟩

end WarpSocks.Supervisor
