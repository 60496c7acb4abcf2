import WarpSocks.Machine.Trace
import WarpSocks.Supervisor.Prepare
import WarpSocks.Sync.Watch

/-!
# The recovery loop

`recover_outbound` of `supervisor.rs`, between the points at which another task or process may look: the channel
that the listeners read, the heartbeat file that the `healthcheck` command reads, and the endpoint state file.  A
process may be killed at any point and launched again.

At every instant of every run, what is published was verified by a probe in the preparation before and is being
watched; while nothing is published the `healthcheck` command fails, but for the moments between a withdrawal or a
launch and the file; and the pauses grow with the failures up to 32 seconds (`recoverOutbound_publishes`).
-/

namespace WarpSocks.Supervisor

open Endpoint (SerdeJson JsonFileEndpointStore)
open Health (ThresholdRecovery)

/-- Where the supervisor is. -/
inductive Phase (O : Type) where
  /-- The start of `run`. -/
  | launched
  /-- The start of the loop of `recover_outbound`. -/
  | restarting
  | preparing
  /-- The egress is published. -/
  | ready (outbound : O) (endpoint : Option String)
  /-- `watch_outbound`. -/
  | watching (outbound : O) (endpoint : Option String) (recovery : ThresholdRecovery)
  /-- The egress is not published any more. -/
  | withdrawn (endpoint : Option String)
  /-- The endpoint is to be marked. -/
  | blaming (endpoint : String)
  | backingOff
  | sleeping (millis : Nat)
  | returned (error : Chain)
  | panicked

/-- The egress that the supervisor has published. -/
def Phase.published {O : Type} : Phase O → Option O
  | ready outbound _ | watching outbound _ _ => some outbound
  | _ => none

structure State (json : SerdeJson) (O E : Type) where
  phase : Phase O
  failures : UInt32
  /-- The heartbeat file. -/
  heartbeat : String
  channel : Sync.Watch (Option O)
  disk : Disk json
  candidates : Option (CachedCandidates E)

/-- What the supervisor meets. -/
inductive Event (O E : Type) where
  /-- The result of `heartbeat::invalidate`. -/
  | invalidated (result : Except IoError Unit)
  | prepared (input : Input O E)
  /-- `heartbeat::record_success`, which may fail to write the file. -/
  | recorded (now : SystemTime) (written : Bool)
  | watched (event : Health.Event) (written : Bool)
  /-- The load of the endpoint state and its `mark_cooldown`. -/
  | blamed (readable : Bool) (load mark : StoreInput)
  | delayed (millis : Nat)
  | woken
  /-- The process is killed and launched again. -/
  | relaunched

namespace State

variable {json : SerdeJson} {O E : Type}

/-- A process that is launched, with the files it finds. -/
def launch (heartbeat : String) (disk : Disk json) : State json O E :=
  ⟨.launched, 0, heartbeat, .new none, disk, none⟩

variable (config : Config) (country : Option String)

/-- The largest pause in seconds. -/
def ceiling (failures : UInt32) : Nat := 1 <<< min failures.toNat 5

/-- The part of `recover_outbound` about the endpoint of an egress that is withdrawn. -/
def blame (disk : Disk json) (endpoint : String) (readable : Bool) (load mark : StoreInput) : Disk json :=
  let calls := disk.calls ++ [(load.now, .load)]
  match JsonFileEndpointStore.load json config.endpointStateFile config.stateDir readable load.now load.save
    disk.file with
  | (.error _, file) => ⟨file, calls⟩
  | (.ok store, file) =>
    let (_, _, file) := store.markCooldown json endpoint config.startupEndpointCooldown mark.now mark.save file
    ⟨file, calls ++ [(mark.now, .markCooldown endpoint config.startupEndpointCooldown)]⟩

/-- The end of a preparation. -/
def afterPrepare (s : State json O E) :
    Disk json × Option (CachedCandidates E) × Prepared (O × Option String) → State json O E
  | (disk, candidates, .ready (outbound, endpoint)) =>
    { s with
      disk, candidates, channel := s.channel.send (some outbound), failures := 0
      phase := .ready outbound endpoint }
  | (disk, candidates, .failed _) => { s with disk, candidates, phase := .backingOff }
  | (disk, _, .cut) => { s with disk, candidates := none, phase := .backingOff }
  | (disk, candidates, .panicked) => { s with disk, candidates, phase := .panicked }

def step (s : State json O E) : Event O E → Option (State json O E)
  | .invalidated result =>
    match s.phase, result with
    | .launched, .ok () => some { s with heartbeat := Health.invalidate, phase := .restarting }
    | .launched, .error e => some { s with phase := .returned ["重置启动健康状态失败", e.msg] }
    | .restarting, .ok () => some { s with heartbeat := Health.invalidate, phase := .preparing }
    | .restarting, .error e => some { s with phase := .returned ["重置恢复健康状态失败", e.msg] }
    | .withdrawn endpoint, .ok () =>
      some { s with
        heartbeat := Health.invalidate
        phase :=
          match country, endpoint with
          | none, some endpoint => .blaming endpoint
          | _, _ => .backingOff }
    | .withdrawn _, .error e => some { s with phase := .returned ["重置恢复健康状态失败", e.msg] }
    | _, _ => none
  | .prepared input =>
    match s.phase with
    | .preparing => some (s.afterPrepare (prepare json config country input s.disk s.candidates))
    | _ => none
  | .recorded now written =>
    match s.phase with
    | .ready outbound endpoint =>
      some { s with
        heartbeat := if written then Health.recordSuccess now else s.heartbeat
        phase := .watching outbound endpoint (.new (Health.failureThreshold config.health country endpoint)) }
    | _ => none
  | .watched event written =>
    match s.phase with
    | .watching outbound endpoint recovery =>
      match Health.step ⟨recovery, s.heartbeat⟩ event with
      | .next watch =>
        some { s with
          heartbeat := if written then watch.heartbeat else s.heartbeat
          phase := .watching outbound endpoint watch.recovery }
      | .stop _ => some { s with channel := s.channel.send none, phase := .withdrawn endpoint }
    | _ => none
  | .blamed readable load mark =>
    match s.phase with
    | .blaming endpoint =>
      some { s with disk := blame config s.disk endpoint readable load mark, phase := .backingOff }
    | _ => none
  | .delayed millis =>
    match s.phase with
    | .backingOff =>
      let failures := Health.saturatingSucc s.failures
      if 1000 ≤ millis ∧ millis ≤ ceiling failures * 1000 then some { s with failures, phase := .sleeping millis }
      else none
    | _ => none
  | .woken =>
    match s.phase with
    | .sleeping _ => some { s with phase := .restarting }
    | _ => none
  | .relaunched => some (launch s.heartbeat s.disk)

end State

/-! ### Runs -/

section Runs

variable {json : SerdeJson} {O E : Type}

def Event.input? : Event O E → Option (Input O E)
  | prepared input => some input
  | _ => none

/-- The last preparation. -/
def lastPrepared (es : List (Event O E)) : Option (Input O E) := (es.filterMap Event.input?).getLast?

/-- How many rounds have failed since an egress was ready. -/
def streak (es : List (Event O E)) : Nat :=
  es.foldl (fun n e =>
    match e with
    | .delayed _ => n + 1
    | .recorded _ _ | .relaunched => 0
    | _ => n) 0

/-- The phases in which the heartbeat file says that there is no egress. -/
def Phase.silent : Phase O → Bool
  | restarting | preparing | blaming _ | backingOff | sleeping _ | panicked => true
  | launched | ready _ _ | watching _ _ _ | withdrawn _ | returned _ => false

def Phase.isReady : Phase O → Bool
  | ready _ _ => true
  | _ => false

structure Sound (country : Option String) (es : List (Event O E)) (s : State json O E) : Prop where
  value : s.channel.value = s.phase.published
  verified : ∀ o, s.phase.published = some o → ∃ input, lastPrepared es = some input ∧ input.Verifies country o
  heartbeat : s.phase.silent = true → s.heartbeat = Health.invalidate
  failures : s.phase.isReady = false → s.failures.toNat = min (streak es) (UInt32.size - 1)
  ready : s.phase.isReady = true → s.failures = 0
  pause : ∀ millis, s.phase = .sleeping millis →
    1000 ≤ millis ∧ millis ≤ State.ceiling s.failures * 1000 ∧ 1 ≤ s.failures.toNat

private theorem lastPrepared_concat (es : List (Event O E)) (e : Event O E) :
    lastPrepared (es ++ [e]) = e.input?.or (lastPrepared es) := by
  unfold lastPrepared
  rw [List.filterMap_append]
  cases h : e.input? with
  | none => simp [h]
  | some input => simp [h]

private theorem streak_concat (es : List (Event O E)) (e : Event O E) :
    streak (es ++ [e]) =
      match e with
      | .delayed _ => streak es + 1
      | .recorded _ _ | .relaunched => 0
      | _ => streak es := by
  unfold streak
  rw [List.foldl_append]
  rfl

private theorem sound_launch (country : Option String) (heartbeat : String) (disk : Disk json) :
    Sound country ([] : List (Event O E)) (State.launch heartbeat disk) :=
  ⟨rfl, fun _ h => (nomatch h), fun h => (nomatch h), fun _ => rfl, fun h => (nomatch h), fun _ h => (nomatch h)⟩

variable {config : Config} {country : Option String} {es : List (Event O E)} {s s' : State json O E} {e : Event O E}

/-- A step with which nothing is published or withdrawn, and no round ends. -/
private theorem Sound.quiet (h : Sound country es s) (hchannel : s'.channel = s.channel)
    (hpublished : s'.phase.published = s.phase.published) (hinput : e.input? = none)
    (hheartbeat : s'.phase.silent = true → s'.heartbeat = Health.invalidate) (hfailures : s'.failures = s.failures)
    (hready : s.phase.isReady = false ∧ s'.phase.isReady = false) (hstreak : streak (es ++ [e]) = streak es)
    (hpause : ∀ millis, s'.phase ≠ .sleeping millis) : Sound country (es ++ [e]) s' := by
  refine ⟨?_, fun o ho => ?_, hheartbeat, fun _ => ?_, fun hr => ?_, fun millis hm => (hpause millis hm).elim⟩
  · rw [hchannel, hpublished, h.value]
  · rw [hpublished] at ho
    obtain ⟨input, hlast, hverifies⟩ := h.verified o ho
    exact ⟨input, by rw [lastPrepared_concat, hinput]; exact hlast, hverifies⟩
  · rw [hfailures, hstreak]
    exact h.failures hready.1
  · rw [hready.2] at hr
    nomatch hr

private theorem Sound.invalidated {result : Except IoError Unit} (h : Sound country es s)
    (hstep : s.step config country (.invalidated result) = some s') :
    Sound country (es ++ [.invalidated result]) s' := by
  have hquiet {s' : State json O E} (hphase : s.phase.published = none ∧ s.phase.isReady = false)
      (hphase' : s'.phase.published = none ∧ s'.phase.isReady = false ∧ ∀ millis, s'.phase ≠ .sleeping millis)
        (hchannel : s'.channel = s.channel)
      (hfailures : s'.failures = s.failures) (hheartbeat : s'.phase.silent = true →
        s'.heartbeat = Health.invalidate) :
      Sound country (es ++ [.invalidated result]) s' :=
    h.quiet hchannel (hphase'.1.trans hphase.1.symm) rfl hheartbeat hfailures ⟨hphase.2, hphase'.2.1⟩
      (streak_concat _ _) hphase'.2.2
  simp only [State.step] at hstep
  split at hstep
  · rename_i hphase
    cases hstep
    exact hquiet (by rw [hphase]; exact ⟨rfl, rfl⟩) ⟨rfl, rfl, fun _ hm => nomatch hm⟩ rfl rfl fun _ => rfl
  · rename_i hphase
    cases hstep
    exact hquiet (by rw [hphase]; exact ⟨rfl, rfl⟩) ⟨rfl, rfl, fun _ hm => nomatch hm⟩ rfl rfl fun hs => nomatch hs
  · rename_i hphase
    cases hstep
    exact hquiet (by rw [hphase]; exact ⟨rfl, rfl⟩) ⟨rfl, rfl, fun _ hm => nomatch hm⟩ rfl rfl fun _ => rfl
  · rename_i hphase
    cases hstep
    exact hquiet (by rw [hphase]; exact ⟨rfl, rfl⟩) ⟨rfl, rfl, fun _ hm => nomatch hm⟩ rfl rfl fun hs => nomatch hs
  · rename_i endpoint hphase
    cases hstep
    refine hquiet (by rw [hphase]; exact ⟨rfl, rfl⟩) ?_ rfl rfl fun _ => rfl
    cases country with
    | none =>
      cases endpoint with
      | none => exact ⟨rfl, rfl, fun _ hm => nomatch hm⟩
      | some endpoint => exact ⟨rfl, rfl, fun _ hm => nomatch hm⟩
    | some country => exact ⟨rfl, rfl, fun _ hm => nomatch hm⟩
  · rename_i hphase
    cases hstep
    exact hquiet (by rw [hphase]; exact ⟨rfl, rfl⟩) ⟨rfl, rfl, fun _ hm => nomatch hm⟩ rfl rfl fun hs => nomatch hs
  · nomatch hstep

/-- A preparation publishes what it has verified, or nothing. -/
private theorem Sound.prepared {input : Input O E} (h : Sound country es s)
    (hstep : s.step config country (.prepared input) = some s') : Sound country (es ++ [.prepared input]) s' := by
  simp only [State.step] at hstep
  split at hstep
  · rename_i hphase
    cases hstep
    have hheartbeat : s.heartbeat = Health.invalidate := h.heartbeat (by rw [hphase]; rfl)
    have hvalue : s.channel.value = none := h.value.trans (by rw [hphase]; rfl)
    have hfailures : s.failures.toNat = min (streak (es ++ [.prepared input])) (UInt32.size - 1) := by
      rw [streak_concat]
      exact h.failures (by rw [hphase]; rfl)
    rcases hprepare : prepare json config country input s.disk s.candidates with
      ⟨disk, candidates, ⟨o, endpoint⟩ | error | _ | _⟩
    · have hverifies : input.Verifies country o :=
        verified_of_prepare (congrArg (fun r => r.2.2) hprepare)
      refine ⟨rfl, fun o' ho' => ?_, fun hs => (nomatch hs), fun hr => (nomatch hr), fun _ => rfl,
        fun _ hm => (nomatch hm)⟩
      cases ho'
      exact ⟨input, by rw [lastPrepared_concat]; rfl, hverifies⟩
    · exact ⟨hvalue, fun _ ho => (nomatch ho), fun _ => hheartbeat, fun _ => hfailures, fun hr => (nomatch hr),
        fun _ hm => (nomatch hm)⟩
    · exact ⟨hvalue, fun _ ho => (nomatch ho), fun _ => hheartbeat, fun _ => hfailures, fun hr => (nomatch hr),
        fun _ hm => (nomatch hm)⟩
    · exact ⟨hvalue, fun _ ho => (nomatch ho), fun _ => hheartbeat, fun _ => hfailures, fun hr => (nomatch hr),
        fun _ hm => (nomatch hm)⟩
  · nomatch hstep

private theorem Sound.recorded {now : SystemTime} {written : Bool} (h : Sound country es s)
    (hstep : s.step config country (.recorded now written) = some s') :
    Sound country (es ++ [.recorded now written]) s' := by
  simp only [State.step] at hstep
  split at hstep
  · rename_i outbound endpoint hphase
    cases hstep
    refine ⟨h.value.trans (by rw [hphase]; rfl), fun o ho => ?_, fun hs => (nomatch hs), fun _ => ?_,
      fun hr => (nomatch hr), fun _ hm => (nomatch hm)⟩
    · rw [lastPrepared_concat]
      exact h.verified o (by rw [hphase]; exact ho)
    · rw [streak_concat, h.ready (by rw [hphase]; rfl)]
      rfl
  · nomatch hstep

private theorem Sound.watched {event : Health.Event} {written : Bool} (h : Sound country es s)
    (hstep : s.step config country (.watched event written) = some s') :
    Sound country (es ++ [.watched event written]) s' := by
  simp only [State.step] at hstep
  split at hstep
  · rename_i outbound endpoint recovery hphase
    split at hstep
    · cases hstep
      exact h.quiet rfl (by rw [hphase]; rfl) rfl (fun hs => nomatch hs) rfl ⟨by rw [hphase]; rfl, rfl⟩
        (streak_concat _ _) fun _ hm => nomatch hm
    · cases hstep
      refine ⟨rfl, fun _ ho => (nomatch ho), fun hs => (nomatch hs), fun _ => ?_, fun hr => (nomatch hr),
        fun _ hm => (nomatch hm)⟩
      rw [streak_concat]
      exact h.failures (by rw [hphase]; rfl)
  · nomatch hstep

private theorem Sound.delayed {millis : Nat} (h : Sound country es s)
    (hstep : s.step config country (.delayed millis) = some s') : Sound country (es ++ [.delayed millis]) s' := by
  simp only [State.step] at hstep
  split at hstep
  · rename_i hphase
    obtain ⟨⟨hlow, hhigh⟩, heq⟩ := Option.ite_none_right_eq_some.1 hstep
    cases heq
    have hcount := Health.toNat_saturatingSucc s.failures
    have hfailures := h.failures (by rw [hphase]; rfl)
    have hsize : UInt32.size = 4294967296 := rfl
    refine ⟨h.value.trans (by rw [hphase]; rfl), fun _ ho => (nomatch ho), fun _ => h.heartbeat (by rw [hphase]; rfl),
      fun _ => ?_, fun hr => (nomatch hr), fun m hm => ?_⟩
    · rw [streak_concat]
      dsimp only
      omega
    · cases hm
      refine ⟨hlow, hhigh, ?_⟩
      dsimp only
      omega
  · nomatch hstep

private theorem Sound.step (h : Sound country es s) (hstep : s.step config country e = some s') :
    Sound country (es ++ [e]) s' := by
  cases e with
  | invalidated result => exact h.invalidated hstep
  | prepared input => exact h.prepared hstep
  | recorded now written => exact h.recorded hstep
  | watched event written => exact h.watched hstep
  | blamed readable load mark =>
    simp only [State.step] at hstep
    split at hstep
    · rename_i endpoint hphase
      cases hstep
      exact h.quiet rfl (by rw [hphase]; rfl) rfl (fun _ => h.heartbeat (by rw [hphase]; rfl)) rfl
        ⟨by rw [hphase]; rfl, rfl⟩ (streak_concat _ _) fun _ hm => nomatch hm
    · nomatch hstep
  | delayed millis => exact h.delayed hstep
  | woken =>
    simp only [State.step] at hstep
    split at hstep
    · rename_i millis hphase
      cases hstep
      exact h.quiet rfl (by rw [hphase]; rfl) rfl (fun _ => h.heartbeat (by rw [hphase]; rfl)) rfl
        ⟨by rw [hphase]; rfl, rfl⟩ (streak_concat _ _) fun _ hm => nomatch hm
    · nomatch hstep
  | relaunched =>
    cases hstep
    refine ⟨rfl, fun _ ho => (nomatch ho), fun hs => (nomatch hs), fun _ => ?_, fun hr => (nomatch hr),
      fun _ hm => (nomatch hm)⟩
    rw [streak_concat]
    rfl

/-- In every run, with every answer of the network, the files and the clock, and wherever a process is killed:
what is published is what the supervisor watches, and was verified by a probe in the last preparation; while
nothing is published the `healthcheck` command finds no heartbeat that is good, unless the process has just been
launched, has just withdrawn the egress or has returned; and a pause is at least one second and at most two to the
number of failed rounds, or to the fifth. -/
theorem recoverOutbound_publishes (json : SerdeJson) (config : Config) (country : Option String) (heartbeat : String)
    (disk : Disk json) (es : List (Event O E)) (s : State json O E)
    (h : Machine.exec (State.step config country) (.launch heartbeat disk) es = some s) :
    s.channel.value = s.phase.published ∧
    (∀ o, s.channel.value = some o → ∃ input, lastPrepared es = some input ∧ input.Verifies country o) ∧
    (s.channel.value = none → s.phase = .launched ∨ (∃ endpoint, s.phase = .withdrawn endpoint) ∨
      (∃ error, s.phase = .returned error) ∨
      ∀ (now : SystemTime) (maxAge : Duration), maxAge.secs < Health.nowSecs now →
        Health.evaluate s.heartbeat (Health.nowSecs now) maxAge ≠ .ok ()) ∧
    ∀ millis, s.phase = .sleeping millis → 1000 ≤ millis ∧ millis ≤ 1000 * 2 ^ min (streak es) 5 ∧ 1 ≤ streak es := by
  have hs : Sound country es s :=
    Machine.exec_induction_events (fun _ _ _ _ h hstep => h.step hstep) (sound_launch country heartbeat disk) h
  refine ⟨hs.value, fun o ho => hs.verified o (hs.value ▸ ho), fun hnone => ?_, fun millis hm => ?_⟩
  · have hpublished : s.phase.published = none := hs.value ▸ hnone
    have hcheck (hsilent : s.phase.silent = true) (now : SystemTime) (maxAge : Duration)
        (hage : maxAge.secs < Health.nowSecs now) : Health.evaluate s.heartbeat (Health.nowSecs now) maxAge ≠
          .ok () := by
      rw [hs.heartbeat hsilent, ne_eq, Health.evaluate_invalidate]
      exact Nat.not_le.2 hage
    cases hphase : s.phase with
    | launched => exact .inl rfl
    | ready => rw [hphase] at hpublished; nomatch hpublished
    | watching => rw [hphase] at hpublished; nomatch hpublished
    | withdrawn endpoint => exact .inr (.inl ⟨endpoint, rfl⟩)
    | returned error => exact .inr (.inr (.inl ⟨error, rfl⟩))
    | restarting => exact .inr (.inr (.inr (hcheck (by rw [hphase]; rfl))))
    | preparing => exact .inr (.inr (.inr (hcheck (by rw [hphase]; rfl))))
    | blaming => exact .inr (.inr (.inr (hcheck (by rw [hphase]; rfl))))
    | backingOff => exact .inr (.inr (.inr (hcheck (by rw [hphase]; rfl))))
    | sleeping => exact .inr (.inr (.inr (hcheck (by rw [hphase]; rfl))))
    | panicked => exact .inr (.inr (.inr (hcheck (by rw [hphase]; rfl))))
  · obtain ⟨hlow, hhigh, hone⟩ := hs.pause millis hm
    have hfailures := hs.failures (by rw [hm]; rfl)
    have hsize : UInt32.size = 4294967296 := rfl
    have hmin : min s.failures.toNat 5 = min (streak es) 5 := by omega
    rw [State.ceiling, Nat.one_shiftLeft, hmin] at hhigh
    exact ⟨hlow, by omega, by omega⟩

end Runs

/-- MASQUE answers the second probe and is published. -/
theorem recoverOutbound_publishes_masque :
    let config : Config := ⟨true, "", "/data/endpoint.json", "/data", .fromSecs 600, ⟨.fromSecs 10, .fromSecs 5, 2⟩⟩
    let masque : MasqueAttempt Nat := ⟨.ok (), .ok 7, [.error "timeout", .ok ()]⟩
    let wg : WgInput Nat := ⟨none, true, ⟨0, .done⟩, fun _ => 0, fun _ => none, fun _ => ⟨0, .done⟩⟩
    let region : RegionInput Nat Unit := ⟨none, 0, none, 0, ⟨List.range, fun _ => .refl _⟩, fun _ _ => none⟩
    let es : List (Event Nat Unit) :=
      [.invalidated (.ok ()), .invalidated (.ok ()), .prepared ⟨⟨some masque, wg⟩, region⟩,
        .recorded (.ofSecs 100 (by decide)) true]
    ∃ s : State .plain Nat Unit, Machine.exec (State.step config none) (.launch "" ⟨none, []⟩) es = some s ∧
      s.channel.value = some 7 ∧ ∃ input, lastPrepared es = some input ∧ input.Verifies none 7 := by
  intro config masque wg region es
  exact ⟨_, rfl, rfl, (recoverOutbound_publishes .plain config none "" ⟨none, []⟩ es _ rfl).2.1 7 rfl⟩

end WarpSocks.Supervisor
