import WarpSocks.Text
import WarpSocks.Time

/-!
# The heartbeat file

`health/heartbeat.rs`, and the window that the `healthcheck` command gives it.  The supervisor writes the second
of the last successful probe; the command, a process of its own, compares it with the clock.  Writes succeed here.
-/

namespace WarpSocks.Health

/-- The text that `invalidate` writes. -/
def invalidate : String := "0\n"

/-- `now_secs`. -/
def nowSecs (now : SystemTime) : Nat := if now.nanos < 0 then 0 else (now.nanos / 1000000000).toNat

/-- The text that `record_success` writes at an instant. -/
def recordSuccess (now : SystemTime) : String := toString (nowSecs now) ++ "\n"

/-- `evaluate`. -/
def evaluate (content : String) (now : Nat) (maxAge : Duration) : Except String Unit :=
  match Text.parseUnsigned UInt64.size (Text.trim content) with
  | none => .error "心跳文件格式异常"
  | some ts =>
    let age := now - ts
    if maxAge.secs < age then .error s!"心跳已过期（{age}s 未更新，运行期健康检查循环可能已卡住）"
    else .ok ()

/-- `AppConfig`, of which only the health check matters here. -/
structure AppConfig where
  healthcheckInterval : Duration
  healthcheckProbeTimeout : Duration
  healthcheckFailureThreshold : UInt32

/-- `u32::saturating_add(1)`. -/
def saturatingSucc (n : UInt32) : UInt32 := if n.toNat + 1 < UInt32.size then n + 1 else n

/-- `heartbeat_max_age`; `none` if it panics because of an overflow. -/
def heartbeatMaxAge (config : AppConfig) : Option Duration := do
  let rounds := saturatingSucc config.healthcheckFailureThreshold
  let round ← config.healthcheckInterval.checkedAdd config.healthcheckProbeTimeout
  let window ← round.checkedMul rounds.toNat
  window.checkedAdd (.fromSecs 10)

/-- How long a round of the supervisor may take: the pause and the probe. -/
def AppConfig.roundNanos (config : AppConfig) : Nat :=
  config.healthcheckInterval.asNanos + config.healthcheckProbeTimeout.asNanos

theorem toNat_saturatingSucc (n : UInt32) : (saturatingSucc n).toNat = min (n.toNat + 1) (UInt32.size - 1) := by
  have hlt : n.toNat < UInt32.size := n.toNat_lt
  unfold saturatingSucc
  by_cases h : n.toNat + 1 < UInt32.size
  · rw [if_pos h, UInt32.toNat_add]
    show (n.toNat + 1) % UInt32.size = _
    rw [Nat.mod_eq_of_lt h]
    omega
  · rw [if_neg h]
    omega

/-- The window has room for as many rounds as there may be failures, and ten seconds. -/
theorem le_heartbeatMaxAge {config : AppConfig} {maxAge : Duration} (h : heartbeatMaxAge config = some maxAge) :
    config.healthcheckFailureThreshold.toNat * config.roundNanos + 10 * 1000000000 ≤ maxAge.asNanos := by
  simp only [heartbeatMaxAge, Option.bind_eq_bind, Option.bind_eq_some_iff] at h
  obtain ⟨round, hround, window, hwindow, hage⟩ := h
  have hrounds : config.healthcheckFailureThreshold.toNat ≤
      (saturatingSucc config.healthcheckFailureThreshold).toNat := by
    have hlt : config.healthcheckFailureThreshold.toNat < UInt32.size := config.healthcheckFailureThreshold.toNat_lt
    rw [toNat_saturatingSucc]
    omega
  have hwindow : window.asNanos = (saturatingSucc config.healthcheckFailureThreshold).toNat * config.roundNanos := by
    rw [Duration.asNanos_of_ofNanos hwindow, Duration.asNanos_of_ofNanos hround, Nat.mul_comm]
    rfl
  rw [Duration.asNanos_of_ofNanos hage, hwindow]
  exact Nat.add_le_add_right (Nat.mul_le_mul_right config.roundNanos hrounds) _

theorem nowSecs_lt (now : SystemTime) : nowSecs now < UInt64.size := by
  have := now.upper
  unfold nowSecs
  split
  · decide
  · show _ < 18446744073709551616
    omega

/-- A heartbeat is read back as it was written, and is good for as many whole seconds as the window has. -/
theorem evaluate_recordSuccess (recorded : SystemTime) (now : Nat) (maxAge : Duration) :
    evaluate (recordSuccess recorded) now maxAge = .ok () ↔ now - nowSecs recorded ≤ maxAge.secs := by
  rw [evaluate, recordSuccess, (Text.noWhitespace_toString _).trim_append_newline,
    Text.parseUnsigned_toString (nowSecs_lt recorded)]
  by_cases h : maxAge.secs < now - nowSecs recorded
  · simp only [if_pos h]
    exact ⟨fun hok => (by cases hok), fun hle => absurd hle (by omega)⟩
  · simp only [if_neg h]
    exact ⟨fun _ => by omega, fun _ => trivial⟩

/-- The file of an egress that is withdrawn is good for no longer than the window behind `UNIX_EPOCH`. -/
theorem evaluate_invalidate (now : Nat) (maxAge : Duration) :
    evaluate invalidate now maxAge = .ok () ↔ now ≤ maxAge.secs := by
  have hzero : nowSecs (.ofSecs 0 (by decide)) = 0 := by decide
  have hfile : invalidate = recordSuccess (.ofSecs 0 (by decide)) := by
    rw [recordSuccess, hzero]
    decide
  rw [hfile, evaluate_recordSuccess, hzero, Nat.sub_zero]

/-- Truncation to whole seconds costs less than one second. -/
theorem nowSecs_sub_le {recorded now : SystemTime} {elapsed : Nat} (h : now.nanos ≤ recorded.nanos + elapsed) :
    nowSecs now - nowSecs recorded ≤ elapsed / 1000000000 + 1 := by
  unfold nowSecs
  split <;> split <;> omega

end WarpSocks.Health
