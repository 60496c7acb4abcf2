import WarpSocks.Health.Heartbeat
import WarpSocks.Machine.Loop

/-!
# The supervisor's watch over an egress

`watch_outbound` of `supervisor.rs` with `ThresholdRecovery`, from the heartbeat that `recover_outbound` records
when it has published the egress.  A round is a pause and a probe; the answers of the probes, the instants at
which they come and the end of the connection are inputs.
-/

namespace WarpSocks.Health

/-- `RecoveryAction`. -/
inductive RecoveryAction where
  | continues
  | requestExit
  deriving DecidableEq

/-- `ThresholdRecovery`. -/
structure ThresholdRecovery where
  threshold : UInt32
  consecutiveFailures : UInt32

namespace ThresholdRecovery

/-- `ThresholdRecovery::new`. -/
def new (threshold : UInt32) : ThresholdRecovery := ⟨max threshold 1, 0⟩

/-- `on_success`. -/
def onSuccess (r : ThresholdRecovery) : ThresholdRecovery := { r with consecutiveFailures := 0 }

/-- `on_failure`. -/
def onFailure (r : ThresholdRecovery) : ThresholdRecovery × RecoveryAction :=
  let r := { r with consecutiveFailures := saturatingSucc r.consecutiveFailures }
  (r, if r.threshold ≤ r.consecutiveFailures then .requestExit else .continues)

end ThresholdRecovery

/-- What the loop of `watch_outbound` waits for. -/
inductive Event where
  /-- The round ends at this instant, with a good probe or not. -/
  | probed (ok : Bool) (now : SystemTime)
  /-- The egress, or the WARP connection below it, has ended. -/
  | terminated (reason : String)

/-- Why `watch_outbound` returns. -/
inductive Return where
  | probes
  | terminated (reason : String)
  deriving DecidableEq

/-- The state of the loop, with the heartbeat file. -/
structure Watch where
  recovery : ThresholdRecovery
  heartbeat : String

/-- One round of `watch_outbound`. -/
def step (w : Watch) : Event → Machine.Round Watch Return
  | .terminated reason => .stop (.terminated reason)
  | .probed true now => .next ⟨w.recovery.onSuccess, recordSuccess now⟩
  | .probed false _ =>
    match w.recovery.onFailure with
    | (_, .requestExit) => .stop .probes
    | (recovery, .continues) => .next { w with recovery }

/-- `watch_outbound`. -/
def watchOutbound (heartbeat : String) (failureThreshold : UInt32) (events : List Event) : Watch × Option Return :=
  Machine.run step ⟨.new failureThreshold, heartbeat⟩ events

def WG_HEALTH_FAILURE_THRESHOLD : UInt32 := 1

/-- The threshold that `recover_outbound` chooses: the egress may go through a country, and its WARP connection
may be WireGuard with an endpoint. -/
def failureThreshold (config : AppConfig) (country wgEndpoint : Option String) : UInt32 :=
  if country.isNone && wgEndpoint.isSome then WG_HEALTH_FAILURE_THRESHOLD else config.healthcheckFailureThreshold

/-- The part of `recover_outbound` from the publication of an egress on. -/
def superviseEgress (config : AppConfig) (country wgEndpoint : Option String) (published : SystemTime)
    (events : List Event) : Watch × Option Return :=
  watchOutbound (recordSuccess published) (failureThreshold config country wgEndpoint) events

/-! ### Rounds -/

/-- The answers of the probes. -/
def outcomes (events : List Event) : List Bool :=
  events.filterMap fun e =>
    match e with
    | .probed ok _ => some ok
    | .terminated _ => none

/-- The instant at which the last round has ended. -/
def lastInstant (published : SystemTime) (events : List Event) : SystemTime :=
  events.foldl (fun t e =>
    match e with
    | .probed _ now => now
    | .terminated _ => t) published

/-- Every round takes at most so long. -/
def Timed (bound : Nat) (published : SystemTime) (events : List Event) : Prop :=
  ∀ front ok now rest, events = front ++ .probed ok now :: rest →
    now.nanos ≤ (lastInstant published front).nanos + bound

/-- How many of the last outcomes are failures. -/
def failures (outcomes : List Bool) : Nat := outcomes.foldl (fun k ok => if ok then 0 else k + 1) 0

@[simp] theorem failures_concat (os : List Bool) (ok : Bool) :
    failures (os ++ [ok]) = if ok then 0 else failures os + 1 := by
  simp [failures, List.foldl_append]

@[simp] theorem outcomes_concat (events : List Event) (ok : Bool) (now : SystemTime) :
    outcomes (events ++ [.probed ok now]) = outcomes events ++ [ok] := by
  simp [outcomes]

@[simp] theorem lastInstant_concat (published : SystemTime) (events : List Event) (ok : Bool) (now : SystemTime) :
    lastInstant published (events ++ [.probed ok now]) = now := by
  simp [lastInstant]

private theorem Timed.front {bound : Nat} {published : SystemTime} {events more : List Event}
    (h : Timed bound published (events ++ more)) : Timed bound published events := by
  intro front ok now rest heq
  exact h front ok now (rest ++ more) (by rw [heq]; simp)

/-- The last outcomes are failures if and only if that many failures are counted. -/
private theorem replicate_suffix_iff (k : Nat) (os : List Bool) :
    List.replicate k false <:+ os ↔ k ≤ failures os := by
  induction os using List.reverseRecOn generalizing k with
  | nil => simp [failures]
  | append_singleton os ok ih =>
    cases k with
    | zero => simp
    | succ k =>
      have hlen : [false].length = [ok].length := rfl
      rw [List.replicate_succ', List.suffix_append_inj_of_length_eq hlen, ih, failures_concat]
      cases ok <;> simp

/-- The loop is on: fewer failures than the threshold have come since the instant that the heartbeat file names. -/
structure Alive (threshold bound : Nat) (published : SystemTime) (events : List Event) (w : Watch) : Prop where
  limit : w.recovery.threshold.toNat = threshold
  counted : w.recovery.consecutiveFailures.toNat = failures (outcomes events)
  below : failures (outcomes events) < threshold
  recorded : Timed bound published events → ∃ recorded, w.heartbeat = recordSuccess recorded ∧
    (lastInstant published events).nanos ≤ recorded.nanos + (failures (outcomes events) * bound : Nat)

section Rounds

variable {threshold bound : Nat} {published : SystemTime} {events : List Event} {w : Watch}

/-- Below the threshold the counter does not saturate. -/
private theorem Alive.onFailure (h : Alive threshold bound published events w) :
    ∃ recovery action, w.recovery.onFailure = (recovery, action) ∧ recovery.threshold = w.recovery.threshold ∧
      recovery.consecutiveFailures.toNat = failures (outcomes events) + 1 ∧
      (action = .requestExit ↔ threshold ≤ failures (outcomes events) + 1) := by
  have hcount : (saturatingSucc w.recovery.consecutiveFailures).toNat = failures (outcomes events) + 1 := by
    have hlt : w.recovery.threshold.toNat < UInt32.size := w.recovery.threshold.toNat_lt
    have hbelow := h.below
    rw [h.limit] at hlt
    rw [toNat_saturatingSucc, h.counted]
    omega
  refine ⟨_, _, rfl, rfl, hcount, ?_⟩
  rw [← hcount, ← h.limit, ← UInt32.le_iff_toNat_le]
  by_cases hle : w.recovery.threshold ≤ saturatingSucc w.recovery.consecutiveFailures
  · simp [hle]
  · simp [hle]

/-- A round that leaves the loop on. -/
private theorem Alive.step (h : Alive threshold bound published events w) {e : Event} {w' : Watch}
    (hstep : Health.step w e = .next w') : Alive threshold bound published (events ++ [e]) w' := by
  cases e with
  | terminated reason => cases hstep
  | probed ok now =>
    cases ok with
    | true =>
      cases hstep
      refine ⟨h.limit, by simp [ThresholdRecovery.onSuccess], ?_, fun _ => ⟨now, rfl, ?_⟩⟩
      · rw [outcomes_concat, failures_concat]
        exact Nat.lt_of_le_of_lt (Nat.zero_le _) h.below
      · rw [lastInstant_concat]
        exact Int.le_add_of_nonneg_right (Int.natCast_nonneg _)
    | false =>
      obtain ⟨recovery, action, hfail, hlimit, hcount, hexit⟩ := h.onFailure
      cases action with
      | requestExit => simp [Health.step, hfail] at hstep
      | continues =>
        simp only [Health.step, hfail, Machine.Round.next.injEq] at hstep
        subst hstep
        have hbelow : failures (outcomes events) + 1 < threshold := Nat.not_le.1 fun hle => nomatch hexit.2 hle
        refine ⟨by rw [← h.limit, ← hlimit], by simpa using hcount, by simpa using hbelow, fun htimed => ?_⟩
        obtain ⟨recorded, hheartbeat, hlast⟩ := h.recorded htimed.front
        have hround := htimed events false now [] rfl
        refine ⟨recorded, hheartbeat, ?_⟩
        rw [lastInstant_concat, outcomes_concat, failures_concat, if_neg (by decide), Nat.add_one_mul]
        omega

private theorem alive_start (heartbeat : SystemTime) {failureThreshold : UInt32} (h : 1 ≤ failureThreshold.toNat)
    (bound : Nat) :
    Alive failureThreshold.toNat bound heartbeat [] ⟨.new failureThreshold, recordSuccess heartbeat⟩ := by
  refine ⟨?_, rfl, h, fun _ => ⟨heartbeat, rfl, by simp [lastInstant, outcomes, failures]⟩⟩
  show (if failureThreshold ≤ 1 then 1 else failureThreshold).toNat = failureThreshold.toNat
  split
  · next hle => exact Nat.le_antisymm h (UInt32.le_iff_toNat_le.1 hle)
  · rfl

/-- A running watch is ended by a probe if and only if the probe completes the failures. -/
private theorem Alive.probes_iff (h : Alive threshold bound published events w) (ok : Bool) (now : SystemTime) :
    (Machine.run Health.step w [.probed ok now]).2 = some .probes ↔
      List.replicate threshold false <:+ outcomes (events ++ [.probed ok now]) := by
  rw [replicate_suffix_iff, outcomes_concat, failures_concat]
  cases ok with
  | true =>
    have hstep : Health.step w (.probed true now) = .next ⟨w.recovery.onSuccess, recordSuccess now⟩ := rfl
    have hbelow := h.below
    rw [Machine.run_cons_next _ hstep]
    simp only [Machine.run, if_true]
    exact ⟨fun hnone => (by cases hnone), fun hle => absurd hle (by omega)⟩
  | false =>
    obtain ⟨recovery, action, hfail, -, -, hexit⟩ := h.onFailure
    rw [if_neg (by decide), ← hexit]
    cases action with
    | requestExit =>
      have hstep : Health.step w (.probed false now) = .stop .probes := by simp only [Health.step, hfail]
      rw [Machine.run_cons_stop _ hstep]
      simp
    | continues =>
      have hstep : Health.step w (.probed false now) = .next { w with recovery } := by simp only [Health.step, hfail]
      rw [Machine.run_cons_next _ hstep]
      simp [Machine.run]

/-- What the file says is good until the next probe has answered, if the window is long enough for the failures. -/
private theorem Alive.evaluate_ok (h : Alive threshold bound published events w)
    (htimed : Timed bound published events)
    {maxAge : Duration} (hwindow : threshold * bound + 10 * 1000000000 ≤ maxAge.asNanos) {now : SystemTime}
    (hnow : now.nanos ≤ (lastInstant published events).nanos + bound) :
    evaluate w.heartbeat (nowSecs now) maxAge = .ok () := by
  obtain ⟨recorded, hheartbeat, hlast⟩ := h.recorded htimed
  have hrounds := Nat.mul_le_mul_right bound (Nat.succ_le_of_lt h.below)
  rw [Nat.succ_mul] at hrounds
  have helapsed : now.nanos ≤ recorded.nanos + (failures (outcomes events) * bound + bound : Nat) := by omega
  have hage := nowSecs_sub_le helapsed
  have hsecs := maxAge.asNanos_div
  rw [hheartbeat, evaluate_recordSuccess]
  omega

end Rounds

/-- The heartbeat outlives the failures that the supervisor waits for: as long as `watch_outbound` runs, the
`healthcheck` command finds the file in order at every instant until the next probe has answered, and a probe ends
the watch exactly if it completes as many failures in a row as the threshold says. -/
theorem heartbeat_outlives_failures (config : AppConfig) (hthreshold : 1 ≤ config.healthcheckFailureThreshold.toNat)
    (maxAge : Duration) (hmaxAge : heartbeatMaxAge config = some maxAge) (country wgEndpoint : Option String)
    (published : SystemTime) (events : List Event) (htimed : Timed config.roundNanos published events)
    (hrunning : (superviseEgress config country wgEndpoint published events).2 = none) :
    (∀ now : SystemTime, now.nanos ≤ (lastInstant published events).nanos + config.roundNanos →
      evaluate (superviseEgress config country wgEndpoint published events).1.heartbeat (nowSecs now) maxAge =
        .ok ()) ∧
    ∀ ok now, (superviseEgress config country wgEndpoint published (events ++ [.probed ok now])).2 = some .probes ↔
      List.replicate (failureThreshold config country wgEndpoint).toNat false <:+ outcomes
        (events ++ [.probed ok now]) := by
  have hone : 1 ≤ (failureThreshold config country wgEndpoint).toNat ∧
      (failureThreshold config country wgEndpoint).toNat ≤ config.healthcheckFailureThreshold.toNat := by
    unfold failureThreshold
    split
    · exact ⟨Nat.le_refl 1, hthreshold⟩
    · exact ⟨hthreshold, Nat.le_refl _⟩
  have halive : Alive (failureThreshold config country wgEndpoint).toNat config.roundNanos published events
      (superviseEgress config country wgEndpoint published events).1 :=
    Machine.run_induction_events _ (fun _ _ _ _ h hstep => h.step hstep) (alive_start published hone.1 _) hrunning
  have hwindow := Nat.mul_le_mul_right config.roundNanos hone.2
  refine ⟨fun now hnow => halive.evaluate_ok htimed ?_ hnow, fun ok now => ?_⟩
  · exact Nat.le_trans (Nat.add_le_add_right hwindow _) (le_heartbeatMaxAge hmaxAge)
  · rw [← halive.probes_iff ok now]
    unfold superviseEgress watchOutbound at hrunning ⊢
    rw [Machine.run_append]
    generalize Machine.run step _ events = p at hrunning ⊢
    obtain ⟨w, _ | _⟩ := p
    · rfl
    · cases hrunning

/-- With a threshold of two and rounds of fifteen seconds, the file of the instant zero is good for thirty seconds
if the first probe fails. -/
theorem heartbeat_outlives_failures_second_round :
    let config : AppConfig := ⟨.fromSecs 10, .fromSecs 5, 2⟩
    let published := SystemTime.ofSecs 0 (by decide)
    heartbeatMaxAge config = some (.fromSecs 55) ∧
    evaluate (superviseEgress config none none published [.probed false (.ofSecs 15 (by decide))]).1.heartbeat
      (nowSecs (.ofSecs 30 (by decide))) (.fromSecs 55) = .ok () := by
  intro config published
  have htimed : Timed config.roundNanos published [.probed false (.ofSecs 15 (by decide))] := by
    intro front ok now rest heq
    cases front with
    | nil =>
      cases heq
      decide
    | cons e front => cases front <;> cases heq
  obtain ⟨hgood, -⟩ :=
    heartbeat_outlives_failures config (by decide) (.fromSecs 55) (by decide) none none published _ htimed rfl
  exact ⟨by decide, hgood _ (by decide)⟩

end WarpSocks.Health
