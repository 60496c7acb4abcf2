import WarpSocks.Endpoint.Restart
import WarpSocks.Endpoint.Source
import WarpSocks.Health.Watch
import WarpSocks.Io

/-!
# Preparing an egress

The part of `supervisor.rs` that `recover_outbound` runs under its budget: `prepare_base` with MASQUE and the
WireGuard candidates, and `prepare_region` with the cached Psiphon entries.  What the network, the file system,
the clock and the random generator answer is an input, and each `await` may be the one in which the budget ends.
-/

namespace WarpSocks.Supervisor

open Endpoint (SerdeJson JsonFileEndpointStore SaveOutcome Call candidatePool planCandidates)

/-- `AppConfig`, as far as the supervisor reads it here. -/
structure Config where
  enableMasque : Bool
  endpointCandidates : String
  endpointStateFile : String
  /-- The directory of the state file. -/
  stateDir : String
  startupEndpointCooldown : Duration
  health : Health.AppConfig

/-- How a step under the budget ends. -/
inductive Prepared (α : Type) where
  | ready (a : α)
  | failed (error : Chain)
  /-- The budget has ended. -/
  | cut
  /-- An index was out of bounds. -/
  | panicked

def Prepared.map {α β : Type} (f : α → β) : Prepared α → Prepared β
  | ready a => .ready (f a)
  | failed e => .failed e
  | cut => .cut
  | panicked => .panicked

/-- `result.context(..)`. -/
def addContext {α : Type} (context : String) (result : Except Chain α) : Except Chain α :=
  result.mapError (context :: ·)

/-- `startup_probe_error`. -/
def startupProbeError (context : String) : Option String → Chain
  | some error => [context, error]
  | none => [s!"{context}，首次探测尚未完成"]

/-- The loop of `wait_for_warp`, with the last error: the probes that have answered before the timeout. -/
def waitForWarp (lastError : Option String) : List (Except String Unit) → Except Chain Unit
  | [] => .error (startupProbeError "WARP 出口启动探测超时" lastError)
  | .ok () :: _ => .ok ()
  | .error e :: probes => waitForWarp (some e) probes

section Attempts

variable {O : Type}

/-- What a WireGuard candidate meets. -/
structure WgAttempt (O : Type) where
  /-- `build_wg_config`. -/
  config : Except Chain Unit
  /-- `WgOutbound::establish`. -/
  established : Except Chain O
  probes : List (Except String Unit)
  /-- `write_wg_conf`. -/
  snapshot : Except Chain Unit

/-- `try_wg_candidate`. -/
def tryWgCandidate (a : WgAttempt O) : Except Chain O := do
  a.config
  let outbound ← addContext "建立 WireGuard 隧道失败" a.established
  waitForWarp none a.probes
  addContext "写入已验证的 WireGuard 配置快照失败" a.snapshot
  return outbound

/-- What MASQUE meets. -/
structure MasqueAttempt (O : Type) where
  /-- `ensure_masque_credentials`. -/
  credentials : Except Chain Unit
  /-- `Masque::new`. -/
  established : Except Chain O
  probes : List (Except String Unit)

/-- `try_masque`. -/
def tryMasque (a : MasqueAttempt O) : Except Chain O := do
  a.credentials
  let outbound ← addContext "MASQUE 建立失败" a.established
  waitForWarp none a.probes
  return outbound

/-- What a Psiphon entry meets. -/
structure RegionAttempt (O : Type) where
  /-- `Psiphon::connect_entry`, or nothing in its twenty seconds. -/
  ssh : Option (Except Chain Unit)
  /-- `MasqueH2::new`. -/
  h2 : Except Chain O
  probes : List (Except String Unit)

/-- The `timeout` around `Psiphon::connect_entry`. -/
def sshOpened : Option (Except Chain Unit) → Except Chain Unit
  | none => .error ["Psiphon SSH 建立超时", "deadline has elapsed"]
  | some ssh => ssh

/-- The attempt of `prepare_region` on one entry. -/
def tryEntry (a : RegionAttempt O) : Except Chain O := do
  sshOpened a.ssh
  let outbound ← addContext "经 Psiphon 建立 MASQUE H2 失败" a.h2
  waitForWarp none a.probes
  return outbound

end Attempts

/-- What an operation of the endpoint store meets: the clock, and the file system. -/
structure StoreInput where
  now : Nat
  save : SaveOutcome

/-- What a call of `prepare_wireguard` meets. -/
structure WgInput (O : Type) where
  /-- `ensure_account`. -/
  account : Option (Except Chain Unit)
  readable : Bool
  load : StoreInput
  /-- The clock when the plan looks at a candidate. -/
  clock : String → Nat
  attempt : Nat → Option (WgAttempt O)
  /-- The store operation behind the attempt. -/
  store : Nat → StoreInput

/-- The endpoint state file, with the calls that were made on it. -/
structure Disk (json : SerdeJson) where
  file : Option json.Text
  calls : List (Nat × Call)

section WireGuard

variable (json : SerdeJson) (config : Config) {O : Type}

/-- The loop of `prepare_wireguard` from the candidate `i` on. -/
def tryCandidates (input : WgInput O) :
    Nat → List String → JsonFileEndpointStore → Disk json → Disk json × Prepared (O × String)
  | _, [], _, disk => (disk, .failed ["本轮出口候选探测均失败"])
  | i, endpoint :: rest, store, disk =>
    match input.attempt i with
    | none => (disk, .cut)
    | some attempt =>
      let ⟨now, save⟩ := input.store i
      match tryWgCandidate attempt with
      | .ok outbound =>
        let (result, _, file) := store.recordSuccess json endpoint save disk.file
        (⟨file, disk.calls ++ [(now, .recordSuccess endpoint)]⟩,
          match result with
          | .ok () => .ready (outbound, endpoint)
          | .error e => .failed [e])
      | .error _ =>
        let (result, store, file) :=
          store.markCooldown json endpoint config.startupEndpointCooldown now save disk.file
        let disk := ⟨file, disk.calls ++ [(now, .markCooldown endpoint config.startupEndpointCooldown)]⟩
        match result with
        | .ok () => tryCandidates input (i + 1) rest store disk
        | .error e => (disk, .failed [e])

/-- `prepare_wireguard`. -/
def prepareWireguard (input : WgInput O) (disk : Disk json) : Disk json × Prepared (O × String) :=
  match input.account with
  | none => (disk, .cut)
  | some (.error e) => (disk, .failed e)
  | some (.ok ()) =>
    let ⟨now, save⟩ := input.load
    match JsonFileEndpointStore.load json config.endpointStateFile config.stateDir input.readable now save
      disk.file with
    | (.error e, file) => (⟨file, disk.calls ++ [(now, .load)]⟩, .failed [e])
    | (.ok store, file) =>
      let candidates := planCandidates (candidatePool config.endpointCandidates) store input.clock
      if candidates.isEmpty then (⟨file, disk.calls ++ [(now, .load)]⟩, .failed ["未生成任何可用 endpoint 候选。"])
      else tryCandidates json config input 0 candidates store ⟨file, disk.calls ++ [(now, .load)]⟩

/-- What a call of `prepare_base` meets. -/
structure BaseInput (O : Type) where
  masque : Option (MasqueAttempt O)
  wg : WgInput O

/-- `prepare_base`: the egress, and its endpoint if it is WireGuard. -/
def prepareBase (input : BaseInput O) (disk : Disk json) : Disk json × Prepared (O × Option String) :=
  let fallback :=
    let (disk, result) := prepareWireguard json config input.wg disk
    (disk, result.map (Prod.map id some))
  if config.enableMasque then
    match input.masque with
    | none => (disk, .cut)
    | some attempt =>
      match tryMasque attempt with
      | .ok outbound => (disk, .ready (outbound, none))
      | .error _ => fallback
  else fallback

end WireGuard

section Region

variable {O E : Type}

/-- `CachedCandidates`. -/
structure CachedCandidates (E : Type) where
  entries : List E
  /-- In nanoseconds. -/
  fetched : Nat
  preferred : Option Nat

/-- What `order.shuffle` does to the indices of so many entries. -/
structure Shuffle where
  order : Nat → List Nat
  perm : ∀ n, (order n).Perm (List.range n)

/-- What a call of `prepare_region` meets. -/
structure RegionInput (O E : Type) where
  /-- `ensure_masque_credentials`. -/
  credentials : Option (Except Chain Unit)
  now : Nat
  /-- `Psiphon::candidates`, and the clock behind it. -/
  fetch : Option (Except Chain (List E))
  fetched : Nat
  shuffle : Shuffle
  attempt : Nat → E → Option (RegionAttempt O)

/-- `order.swap(0, index)`. -/
def swapFirst (order : List Nat) (index : Nat) : List Nat :=
  (order.set 0 (order.getD index 0)).set index (order.getD 0 0)

/-- The order in which the entries are tried: the shuffle, with the preferred entry first. -/
def entryOrder (order : List Nat) (preferred : Option Nat) : List Nat :=
  match preferred with
  | none => order
  | some preferred =>
    match order.idxOf? preferred with
    | none => order
    | some index => swapFirst order index

/-- The list of entries that `prepare_region` goes on with. -/
def refreshCandidates (input : RegionInput O E) (candidates : Option (CachedCandidates E)) :
    Prepared (CachedCandidates E) :=
  match candidates.filter fun cache => decide (input.now - cache.fetched < 86400 * 1000000000) with
  | some cache => .ready cache
  | none =>
    match input.fetch with
    | none => .cut
    | some (.error e) => .failed e
    | some (.ok entries) => .ready ⟨entries, input.fetched, none⟩

/-- The loop of `prepare_region` from the attempt `i` on, with the entries it has tried; behind it the cache. -/
def tryEntries (country : String) (input : RegionInput O E) (cache : CachedCandidates E) :
    Nat → List Nat → Option Chain → List Nat → Option (CachedCandidates E) × List Nat × Prepared O
  | _, [], lastError, tried =>
    (none, tried, .failed (s!"所选地区所有已尝试路径均不可用: {country}" :: lastError.getD ["没有执行任何候选"]))
  | i, index :: rest, _, tried =>
    match cache.entries[index]? with
    | none => (some cache, tried, .panicked)
    | some entry =>
      match input.attempt i entry with
      | none => (some cache, tried ++ [index], .cut)
      | some attempt =>
        match tryEntry attempt with
        | .ok outbound => (some { cache with preferred := some index }, tried ++ [index], .ready outbound)
        | .error e => tryEntries country input cache (i + 1) rest (some e) (tried ++ [index])

/-- `prepare_region`. -/
def prepareRegion (country : String) (input : RegionInput O E) (candidates : Option (CachedCandidates E)) :
    Option (CachedCandidates E) × List Nat × Prepared O :=
  match input.credentials with
  | none => (candidates, [], .cut)
  | some (.error e) => (candidates, [], .failed e)
  | some (.ok ()) =>
    match refreshCandidates input candidates with
    | .cut => (candidates, [], .cut)
    | .failed e => (candidates, [], .failed e)
    | .panicked => (candidates, [], .panicked)
    | .ready cache =>
      let order := entryOrder (input.shuffle.order cache.entries.length) cache.preferred
      tryEntries country input { cache with preferred := none } 0 (order.take 8) none []

end Region

/-- What a preparation meets. -/
structure Input (O E : Type) where
  base : BaseInput O
  region : RegionInput O E

/-- The future `prepare` of `recover_outbound`: the egress, and the endpoint of the WARP connection if it is
WireGuard. -/
def prepare (json : SerdeJson) (config : Config) (country : Option String) {O E : Type} (input : Input O E)
    (disk : Disk json) (candidates : Option (CachedCandidates E)) :
    Disk json × Option (CachedCandidates E) × Prepared (O × Option String) :=
  match prepareBase json config input.base disk with
  | (disk, .failed e) => (disk, candidates, .failed e)
  | (disk, .cut) => (disk, candidates, .cut)
  | (disk, .panicked) => (disk, candidates, .panicked)
  | (disk, .ready (base, endpoint)) =>
    match country with
    | none => (disk, candidates, .ready (base, endpoint))
    | some country =>
      let (candidates, _, result) := prepareRegion country input.region candidates
      (disk, candidates, result.map fun outbound => (outbound, endpoint))

/-! ### What a success says -/

section Verified

variable {O E : Type} {o : O}

private theorem ok_mem_of_waitForWarp {probes : List (Except String Unit)} {lastError : Option String}
    (h : waitForWarp lastError probes = .ok ()) : .ok () ∈ probes := by
  induction probes generalizing lastError with
  | nil => nomatch h
  | cons probe probes ih =>
    cases probe with
    | ok => exact List.mem_cons_self
    | error e => exact List.mem_cons_of_mem _ (ih h)

/-- An egress that was established, and through which a probe has succeeded. -/
def Verified (established : Except Chain O) (probes : List (Except String Unit)) (o : O) : Prop :=
  established = .ok o ∧ .ok () ∈ probes

private theorem bind_ok {α β : Type} {x : Except Chain α} {f : α → Except Chain β} {b : β} (h : (x >>= f) = .ok b) :
    ∃ a, x = .ok a ∧ f a = .ok b := by
  cases x with
  | error e => nomatch h
  | ok a => exact ⟨a, rfl, h⟩

private theorem of_addContext {α : Type} {context : String} {x : Except Chain α} {a : α}
    (h : addContext context x = .ok a) :
    x = .ok a := by
  cases x with
  | error e => nomatch h
  | ok a' => exact h

private theorem verified_of_tryWgCandidate {a : WgAttempt O} (h : tryWgCandidate a = .ok o) :
    Verified a.established a.probes o := by
  obtain ⟨_, -, h⟩ := bind_ok h
  obtain ⟨outbound, hestablished, h⟩ := bind_ok h
  obtain ⟨_, hwait, h⟩ := bind_ok h
  obtain ⟨_, -, h⟩ := bind_ok h
  cases h
  exact ⟨of_addContext hestablished, ok_mem_of_waitForWarp hwait⟩

private theorem verified_of_tryMasque {a : MasqueAttempt O} (h : tryMasque a = .ok o) :
    Verified a.established a.probes o := by
  obtain ⟨_, -, h⟩ := bind_ok h
  obtain ⟨outbound, hestablished, h⟩ := bind_ok h
  obtain ⟨_, hwait, h⟩ := bind_ok h
  cases h
  exact ⟨of_addContext hestablished, ok_mem_of_waitForWarp hwait⟩

private theorem verified_of_tryEntry {a : RegionAttempt O} (h : tryEntry a = .ok o) : Verified a.h2 a.probes o := by
  obtain ⟨_, -, h⟩ := bind_ok h
  obtain ⟨outbound, hestablished, h⟩ := bind_ok h
  obtain ⟨_, hwait, h⟩ := bind_ok h
  cases h
  exact ⟨of_addContext hestablished, ok_mem_of_waitForWarp hwait⟩

/-- An attempt of the preparation has verified the egress: one through an entry if there is a country. -/
def Input.Verifies (input : Input O E) (country : Option String) (o : O) : Prop :=
  match country with
  | none =>
    (∃ a, input.base.masque = some a ∧ Verified a.established a.probes o) ∨
      ∃ i a, input.base.wg.attempt i = some a ∧ Verified a.established a.probes o
  | some _ => ∃ i entry a, input.region.attempt i entry = some a ∧ Verified a.h2 a.probes o

variable {json : SerdeJson} {config : Config}

private theorem verified_of_tryCandidates {input : WgInput O} {candidates : List String} {i : Nat}
    {store : JsonFileEndpointStore} {disk : Disk json} {endpoint : String}
    (h : (tryCandidates json config input i candidates store disk).2 = .ready (o, endpoint)) :
    ∃ i a, input.attempt i = some a ∧ Verified a.established a.probes o := by
  induction candidates generalizing i store disk with
  | nil => nomatch h
  | cons candidate candidates ih =>
    unfold tryCandidates at h
    split at h
    · nomatch h
    · rename_i a ha
      dsimp only at h
      split at h
      · rename_i outbound htry
        split at h
        · cases h
          exact ⟨i, a, ha, verified_of_tryWgCandidate htry⟩
        · nomatch h
      · split at h
        · exact ih h
        · nomatch h

private theorem verified_of_tryEntries {country : String} {input : RegionInput O E} {cache : CachedCandidates E}
    {i : Nat} {order : List Nat} {lastError : Option Chain} {tried : List Nat}
    (h : (tryEntries country input cache i order lastError tried).2.2 = .ready o) :
    ∃ i entry a, input.attempt i entry = some a ∧ Verified a.h2 a.probes o := by
  induction order generalizing i lastError tried with
  | nil => nomatch h
  | cons index order ih =>
    unfold tryEntries at h
    split at h
    · nomatch h
    · split at h
      · nomatch h
      · rename_i entry _ _ a ha
        split at h
        · rename_i outbound htry
          cases h
          exact ⟨i, entry, a, ha, verified_of_tryEntry htry⟩
        · exact ih h

theorem Prepared.map_eq_ready {α β : Type} {f : α → β} {p : Prepared α} {b : β} (h : p.map f = .ready b) :
    ∃ a, p = .ready a ∧ f a = b := by
  cases p with
  | ready a => exact ⟨a, rfl, Prepared.ready.inj h⟩
  | failed => nomatch h
  | cut => nomatch h
  | panicked => nomatch h

private theorem verified_of_prepareWireguard {input : WgInput O} {disk : Disk json} {endpoint : String}
    (h : (prepareWireguard json config input disk).2 = .ready (o, endpoint)) :
    ∃ i a, input.attempt i = some a ∧ Verified a.established a.probes o := by
  unfold prepareWireguard at h
  split at h
  · nomatch h
  · nomatch h
  · dsimp only at h
    split at h
    · nomatch h
    · split at h
      · nomatch h
      · exact verified_of_tryCandidates h

private theorem verified_of_prepareBase {input : BaseInput O} {disk : Disk json} {endpoint : Option String}
    (h : (prepareBase json config input disk).2 = .ready (o, endpoint)) :
    (∃ a, input.masque = some a ∧ Verified a.established a.probes o) ∨
      ∃ i a, input.wg.attempt i = some a ∧ Verified a.established a.probes o := by
  have hfallback {e : Option String} (hw : (prepareWireguard json config input.wg disk).2.map
      (Prod.map id some) = .ready (o, e)) :
      ∃ i a, input.wg.attempt i = some a ∧ Verified a.established a.probes o := by
    obtain ⟨⟨o', e'⟩, hready, heq⟩ := Prepared.map_eq_ready hw
    cases heq
    exact verified_of_prepareWireguard hready
  unfold prepareBase at h
  dsimp only at h
  split at h
  · split at h
    · nomatch h
    · rename_i a ha
      split at h
      · rename_i outbound htry
        cases h
        exact .inl ⟨a, ha, verified_of_tryMasque htry⟩
      · exact .inr (hfallback h)
  · exact .inr (hfallback h)

private theorem verified_of_prepareRegion {country : String} {input : RegionInput O E}
    {candidates : Option (CachedCandidates E)} (h : (prepareRegion country input candidates).2.2 = .ready o) :
    ∃ i entry a, input.attempt i entry = some a ∧ Verified a.h2 a.probes o := by
  unfold prepareRegion at h
  split at h
  · nomatch h
  · nomatch h
  · split at h
    · nomatch h
    · nomatch h
    · nomatch h
    · exact verified_of_tryEntries h

/-- Only what an attempt has verified is prepared. -/
theorem verified_of_prepare {country : Option String} {input : Input O E} {disk : Disk json}
    {candidates : Option (CachedCandidates E)} {endpoint : Option String}
    (h : (prepare json config country input disk candidates).2.2 = .ready (o, endpoint)) :
    input.Verifies country o := by
  unfold prepare at h
  split at h
  · nomatch h
  · nomatch h
  · nomatch h
  · rename_i disk' base endpoint' hbase
    split at h
    · cases h
      exact verified_of_prepareBase (congrArg Prod.snd hbase)
    · obtain ⟨o', hready, heq⟩ := Prepared.map_eq_ready h
      cases heq
      exact verified_of_prepareRegion hready

end Verified

end WarpSocks.Supervisor
