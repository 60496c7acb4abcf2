import WarpSocks.Table.Entries
import WarpSocks.Time

/-!
# The endpoint state file

`JsonFileEndpointStore` keeps the last good endpoint and, for every endpoint in cooldown, the second its cooldown
ends, in memory and in a JSON file.  The file is read by `load`, which drops the entries that have expired and
writes the rest back if any was dropped; every other operation writes the whole state.  `serde_json` is a
parameter, and the outcome of a save and the clock are inputs.
-/

namespace WarpSocks.Endpoint

/-- `State`. -/
structure State where
  lastGoodEndpoint : String
  cooldowns : Finmap fun _ : String => Nat
  deriving DecidableEq

/-- `State::default`. -/
def State.empty : State := ⟨"", ∅⟩

/-- `serde_json` on `State`: what it writes, it reads back. -/
structure SerdeJson where
  Text : Type
  toVecPretty : State → Text
  fromSlice : Text → Option State
  round_trip : ∀ s, fromSlice (toVecPretty s) = some s

/-- A text that is the state itself. -/
def SerdeJson.plain : SerdeJson := ⟨State, id, some, fun _ => rfl⟩

/-- The outcome of `save`: the file is replaced, or one of its three steps fails and the file stays as it was. -/
inductive SaveOutcome where
  | done
  | noDirectory
  | notSerialised
  | notWritten
  deriving DecidableEq, Repr

/-- The context of the error. -/
def SaveOutcome.result (path parent : String) : SaveOutcome → Except String Unit
  | .done => .ok ()
  | .noDirectory => .error s!"创建 {parent} 失败"
  | .notSerialised => .error "序列化 endpoint 状态失败"
  | .notWritten => .error s!"写入 {path} 失败"

/-- `JsonFileEndpointStore`: the paths of the file and its directory, and the state. -/
structure JsonFileEndpointStore where
  path : String
  parent : String
  state : State
  deriving DecidableEq

variable (json : SerdeJson)

namespace JsonFileEndpointStore

/-- `save`: the result and the file afterwards. -/
def save (store : JsonFileEndpointStore) (outcome : SaveOutcome) (file : Option json.Text) :
    Except String Unit × Option json.Text :=
  (outcome.result store.path store.parent,
    if outcome = .done then some (json.toVecPretty store.state) else file)

/-- `prune_cooldowns`. -/
def pruneCooldowns (store : JsonFileEndpointStore) (forceSave : Bool) (now : Nat) (outcome : SaveOutcome)
    (file : Option json.Text) : Except String Unit × JsonFileEndpointStore × Option json.Text :=
  let before := store.state.cooldowns.size
  let store := { store with
    state := { store.state with cooldowns := store.state.cooldowns.retain fun _ till => decide (now < till) } }
  if forceSave || before != store.state.cooldowns.size then
    let (result, file) := store.save json outcome file
    (result, store, file)
  else (.ok (), store, file)

/-- `load`.  A text that is no state counts as the empty state. -/
def load (path parent : String) (readable : Bool) (now : Nat) (outcome : SaveOutcome) (file : Option json.Text) :
    Except String JsonFileEndpointStore × Option json.Text :=
  let existed := file.isSome
  if existed && !readable then (.error s!"读取 {path} 失败", file)
  else
    let state :=
      match file with
      | some data => (json.fromSlice data).getD .empty
      | none => .empty
    match pruneCooldowns json ⟨path, parent, state⟩ (!existed) now outcome file with
    | (.ok (), store, file) => (.ok store, file)
    | (.error e, _, file) => (.error e, file)

/-- `last_good`. -/
def lastGood (store : JsonFileEndpointStore) : Option String :=
  if store.state.lastGoodEndpoint.isEmpty then none else some store.state.lastGoodEndpoint

/-- `cooldown_remaining`. -/
def cooldownRemaining (store : JsonFileEndpointStore) (now : Nat) (endpoint : String) : Duration :=
  match store.state.cooldowns.lookup endpoint with
  | none => .zero
  | some till => if till ≤ now then .zero else .fromSecs (till - now)

/-- `is_cooling_down`. -/
def isCoolingDown (store : JsonFileEndpointStore) (now : Nat) (endpoint : String) : Bool :=
  !(store.cooldownRemaining now endpoint).isZero

/-- `record_success`.  The state changes also if the save fails. -/
def recordSuccess (store : JsonFileEndpointStore) (endpoint : String) (outcome : SaveOutcome)
    (file : Option json.Text) : Except String Unit × JsonFileEndpointStore × Option json.Text :=
  let store := { store with state := ⟨endpoint, store.state.cooldowns.erase endpoint⟩ }
  let (result, file) := store.save json outcome file
  (result, store, file)

/-- `mark_cooldown`.  The sum of the `u64`s wraps, as in a release build. -/
def markCooldown (store : JsonFileEndpointStore) (endpoint : String) (duration : Duration) (now : Nat)
    (outcome : SaveOutcome) (file : Option json.Text) :
    Except String Unit × JsonFileEndpointStore × Option json.Text :=
  let till := (now + duration.secs) % 2 ^ 64
  let store := { store with
    state := { store.state with cooldowns := store.state.cooldowns.insert endpoint till } }
  let (result, file) := store.save json outcome file
  (result, store, file)

theorem isCoolingDown_iff (store : JsonFileEndpointStore) (now : Nat) (endpoint : String) :
    store.isCoolingDown now endpoint ↔ ∃ till, store.state.cooldowns.lookup endpoint = some till ∧ now < till := by
  unfold isCoolingDown cooldownRemaining
  cases store.state.cooldowns.lookup endpoint with
  | none => simp [Duration.zero, Duration.isZero_fromSecs]
  | some till =>
    by_cases h : till ≤ now
    · simp [h, Duration.zero, Duration.isZero_fromSecs]
    · have hlt : now < till := Nat.lt_of_not_le h
      simp only [h, ↓reduceIte, Duration.isZero_fromSecs]
      simp [hlt]
      omega

/-- What remains of a cooldown is determined by the seconds at which it still runs. -/
theorem cooldownRemaining_eq_of_iff {store store' : JsonFileEndpointStore} {now : Nat} {endpoint : String}
    (h : ∀ t, now ≤ t → (store.isCoolingDown t endpoint ↔ store'.isCoolingDown t endpoint)) :
    store.cooldownRemaining now endpoint = store'.cooldownRemaining now endpoint := by
  simp only [isCoolingDown_iff] at h
  unfold cooldownRemaining
  cases hl : store.state.cooldowns.lookup endpoint with
  | none =>
    cases hl' : store'.state.cooldowns.lookup endpoint with
    | none => rfl
    | some till' =>
      have hle : till' ≤ now := by
        have := h now (Nat.le_refl now)
        simpa [hl, hl'] using this
      simp [hle]
  | some till =>
    cases hl' : store'.state.cooldowns.lookup endpoint with
    | none =>
      have hle : till ≤ now := by
        have := h now (Nat.le_refl now)
        simpa [hl, hl'] using this
      simp [hle]
    | some till' =>
      have hlt : ∀ t, now ≤ t → (t < till ↔ t < till') := by
        intro t ht
        simpa [hl, hl'] using h t ht
      by_cases hle : till ≤ now
      · have hle' : till' ≤ now := by
          have := hlt now (Nat.le_refl now)
          omega
        simp [hle, hle']
      · -- both cooldowns run, and their last seconds agree
        have heq : till = till' := by
          have h₁ := hlt (till - 1) (by omega)
          have h₂ := hlt (till' - 1)
          have h₃ := hlt now (Nat.le_refl now)
          omega
        rw [heq]

end JsonFileEndpointStore

end WarpSocks.Endpoint
