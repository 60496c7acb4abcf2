import WarpSocks.Endpoint.State
import WarpSocks.Host
import WarpSocks.Table.Distinct
import WarpSocks.Text

/-!
# Endpoint candidates

The candidates are the endpoints given by hand, in a normal form, or those built in.  They are tried in an order
of their own: first those that are not cooling down, and in each of the two groups the last good endpoint first
(`planCandidates_order`).
-/

namespace WarpSocks.Endpoint

def BUILTIN_CANDIDATES : List String :=
  ["162.159.193.5:2408", "162.159.193.9:500", "162.159.193.8:1701", "162.159.193.3:4500", "162.159.193.7:2408",
    "162.159.193.47:500", "162.159.193.10:1701", "162.159.193.11:4500"]

/-- `format_endpoint`. -/
def formatEndpoint (host : String) (port : Nat) : String :=
  let looksLikeIpv6 :=
    (match IpText.parse host with
      | some (.v6 _) => true
      | _ => false) || decide (':' ∈ host.toList)
  if looksLikeIpv6 then "[" ++ host ++ "]:" ++ toString port else host ++ ":" ++ toString port

/-- The host and the text of the port, as `normalize_endpoint` cuts them from the trimmed text. -/
def splitEndpoint (trimmed : String) : Option (String × String) :=
  match Text.stripPrefix trimmed '[' with
  | some rest => (Text.splitOnce rest ']').map fun (host, after) => (host, (Text.stripPrefix after ':').getD "")
  | none => some ((Text.rsplitOnce trimmed ':').getD (trimmed, ""))

/-- `normalize_endpoint`. -/
def normalizeEndpoint (raw : String) : Option String :=
  let trimmed := Text.trim raw
  if trimmed.isEmpty then none
  else
    match splitEndpoint trimmed with
    | none => none
    | some (host, port) =>
      if host.isEmpty then none
      else
        let port := if port.isEmpty then "2408" else port
        ((Text.parseUnsigned 65536 port).filter fun p => decide (1 ≤ p)).map fun port => formatEndpoint host port

/-- The loop of `dedup_preserve_order`, with the items it has seen. -/
def dedupFrom (seen : List String) : List String → List String
  | [] => []
  | item :: items => if item ∈ seen then dedupFrom seen items else item :: dedupFrom (item :: seen) items

/-- `dedup_preserve_order`. -/
def dedupPreserveOrder (items : List String) : List String := dedupFrom [] items

/-- `candidate_pool`. -/
def candidatePool (manualCsv : String) : List String :=
  let manual := dedupPreserveOrder ((Text.split manualCsv ',').filterMap normalizeEndpoint)
  if manual.isEmpty then dedupPreserveOrder BUILTIN_CANDIDATES else manual

/-- The pool, with the last good endpoint in front if it is in the pool. -/
def mergeLastGood (lastGood : Option String) (pool : List String) : List String :=
  match lastGood.filter fun endpoint => decide (endpoint ∈ pool) with
  | some lastGood => lastGood :: pool
  | none => pool

/-- `plan_candidates`.  The clock is read for each candidate when it is looked at: `now` is what it shows then. -/
def planCandidates (pool : List String) (store : JsonFileEndpointStore) (now : String → Nat) : List String :=
  let merged := dedupPreserveOrder (mergeLastGood store.lastGood pool)
  let (ready, cooling) := merged.partition fun ep => !store.isCoolingDown (now ep) ep
  ready ++ cooling

private theorem dedupFrom_eq (seen items : List String) :
    dedupFrom seen items = (items.filter fun item => decide (item ∉ seen)).eraseDups := by
  induction items generalizing seen with
  | nil => rfl
  | cons item items ih =>
    unfold dedupFrom
    split
    · rename_i hseen
      rw [ih, List.filter_cons_of_neg (by simpa using hseen)]
    · rename_i hseen
      rw [ih, List.filter_cons_of_pos (by simpa using hseen), List.eraseDups_cons, List.filter_filter]
      congr 2
      refine List.filter_congr fun x _ => ?_
      by_cases hx : x = item
      · simp [hx]
      · simp [hx]

/-- The first occurrence of each item is kept. -/
theorem dedupPreserveOrder_eq (items : List String) : dedupPreserveOrder items = items.eraseDups := by
  rw [dedupPreserveOrder, dedupFrom_eq]
  simp

/-- `last` in front, if it is in the group. -/
def lastFirst (last : Option String) (group : List String) : List String :=
  match last with
  | some g => if g ∈ group then g :: group.erase g else group
  | none => group

theorem lastFirst_perm (last : Option String) (group : List String) : (lastFirst last group).Perm group := by
  unfold lastFirst
  split
  · split
    · exact (List.perm_cons_erase (by assumption)).symm
    · exact .refl group
  · exact .refl group

/-- The last endpoint is the first of those of its own kind. -/
private theorem filter_lastFirst (p : String → Bool) (last : Option String) {group : List String}
    (hgroup : group.Nodup) :
    (lastFirst last group).filter p = lastFirst last (group.filter p) := by
  cases last with
  | none => rfl
  | some g =>
    unfold lastFirst
    dsimp only
    by_cases hg : g ∈ group
    · have herase : (group.erase g).filter p = (group.filter p).erase g := by
        rw [hgroup.erase_eq_filter, (hgroup.filter p).erase_eq_filter, List.filter_filter, List.filter_filter]
        simp only [Bool.and_comm]
      rw [if_pos hg]
      cases hp : p g with
      | true => rw [if_pos (List.mem_filter.2 ⟨hg, hp⟩), List.filter_cons_of_pos hp, herase]
      | false =>
        have hnot : g ∉ group.filter p := fun h => by simp [hp] at h
        rw [if_neg hnot, List.filter_cons_of_neg (by simp [hp]), herase, List.erase_of_not_mem hnot]
    · rw [if_neg hg, if_neg fun h => hg (List.mem_filter.1 h).1]

private theorem eraseDups_mergeLastGood (last : Option String) (pool : List String) :
    (mergeLastGood last pool).eraseDups = lastFirst last pool.eraseDups := by
  cases last with
  | none => rfl
  | some g =>
    unfold mergeLastGood lastFirst
    dsimp only
    by_cases hg : g ∈ pool
    · rw [Option.filter_some_pos (by simpa using hg), if_pos (List.mem_eraseDups.2 hg)]
      dsimp only
      rw [List.eraseDups_cons, Table.eraseDups_filter, (Table.nodup_eraseDups pool).erase_eq_filter]
      rfl
    · rw [Option.filter_some_neg (by simpa using hg), if_neg (mt List.mem_eraseDups.1 hg)]

/-- Of the distinct candidates, the last good one first, those that are not cooling down and then those that are. -/
theorem planCandidates_eq (pool : List String) (store : JsonFileEndpointStore) (now : String → Nat) :
    planCandidates pool store now =
      (lastFirst store.lastGood pool.eraseDups).filter (fun ep => !store.isCoolingDown (now ep) ep) ++
        (lastFirst store.lastGood pool.eraseDups).filter fun ep => store.isCoolingDown (now ep) ep := by
  unfold planCandidates
  dsimp only
  rw [dedupPreserveOrder_eq, eraseDups_mergeLastGood, List.partition_eq_filter_filter]
  congr 1
  exact List.filter_congr fun ep _ => Bool.not_not _

/-- A plan has each candidate of the pool once. -/
private theorem planCandidates_perm (pool : List String) (store : JsonFileEndpointStore) (now : String → Nat) :
    (planCandidates pool store now).Perm pool.eraseDups := by
  rw [planCandidates_eq]
  exact ((List.perm_append_comm).trans (List.filter_append_perm _ _)).trans (lastFirst_perm _ _)

private theorem candidatePool_ne_nil (manualCsv : String) : candidatePool manualCsv ≠ [] := by
  unfold candidatePool
  dsimp only
  split
  · decide
  · rename_i hmanual
    exact fun hnil => hmanual (by rw [hnil]; rfl)

/-- There is always a candidate to try. -/
theorem planCandidates_ne_nil (manualCsv : String) (store : JsonFileEndpointStore) (now : String → Nat) :
    planCandidates (candidatePool manualCsv) store now ≠ [] := by
  intro hnil
  have hperm := planCandidates_perm (candidatePool manualCsv) store now
  rw [hnil] at hperm
  obtain ⟨ep, hep⟩ := List.exists_mem_of_ne_nil _ (candidatePool_ne_nil manualCsv)
  have hmem := hperm.mem_iff.2 (List.mem_eraseDups.2 hep)
  cases hmem

/-- A last good endpoint outside of the pool is as good as none. -/
private theorem lastFirst_of_notMem {last : Option String} {group : List String} (h : ∀ g ∈ last, g ∉ group) :
    lastFirst last group = group := by
  cases last with
  | none => rfl
  | some g => exact if_neg (h g rfl)

/-- Each group of a stable partition is the group of the list. -/
private theorem filter_partition (p : String → Bool) (xs : List String) (group : Bool) :
    ((xs.filter fun x => !p x) ++ xs.filter p).filter (p · == group) = xs.filter (p · == group) := by
  rw [List.filter_append, List.filter_filter, List.filter_filter]
  cases group with
  | true =>
    have hnone : xs.filter (fun x => (p x == true) && !p x) = [] := List.filter_eq_nil_iff.2 fun x _ => by simp
    rw [hnone, List.nil_append]
    exact List.filter_congr fun x _ => by simp
  | false =>
    have hnone : xs.filter (fun x => (p x == false) && p x) = [] := List.filter_eq_nil_iff.2 fun x _ => by simp
    rw [hnone, List.append_nil]
    exact List.filter_congr fun x _ => by simp

/-- A plan has each candidate of the pool once, those that are cooling down behind the others; both groups are in
the order of their first occurrence in the pool but for the last good endpoint, which is the first of its group;
and it does not matter which endpoint was the last good one if that is not in the pool. -/
theorem planCandidates_order (pool : List String) (store : JsonFileEndpointStore) (now : String → Nat) :
    let cooling := fun ep => store.isCoolingDown (now ep) ep
    let plan := planCandidates pool store now
    plan.Perm pool.eraseDups ∧ plan.Nodup ∧ (∀ ep, ep ∈ plan ↔ ep ∈ pool) ∧
    plan.Pairwise (fun a b => cooling a → cooling b) ∧
    (∀ group, plan.filter (cooling · == group) =
      lastFirst store.lastGood (pool.eraseDups.filter (cooling · == group))) ∧
    (∀ store' : JsonFileEndpointStore, store'.state.cooldowns = store.state.cooldowns →
      (∀ g ∈ store.lastGood, g ∉ pool) → (∀ g ∈ store'.lastGood, g ∉ pool) →
      planCandidates pool store' now = plan) := by
  intro cooling plan
  have hplan : plan = (lastFirst store.lastGood pool.eraseDups).filter (fun ep => !cooling ep) ++
      (lastFirst store.lastGood pool.eraseDups).filter cooling := planCandidates_eq pool store now
  have hperm : plan.Perm pool.eraseDups := planCandidates_perm pool store now
  refine ⟨hperm, hperm.nodup_iff.2 (Table.nodup_eraseDups pool), fun ep => ?_, ?_, ?_, ?_⟩
  · rw [hperm.mem_iff, List.mem_eraseDups]
  · rw [hplan, List.pairwise_append]
    refine ⟨?_, ?_, fun a _ b hb _ => (List.mem_filter.1 hb).2⟩
    · refine List.pairwise_of_forall_mem_list fun a ha b _ hcool => ?_
      have hready := (List.mem_filter.1 ha).2
      simp [hcool] at hready
    · exact List.pairwise_of_forall_mem_list fun a _ b hb _ => (List.mem_filter.1 hb).2
  · intro group
    rw [hplan, filter_partition, filter_lastFirst _ _ (Table.nodup_eraseDups pool)]
  · intro store' hcooldowns hlast hlast'
    have hmem {last : Option String} (h : ∀ g ∈ last, g ∉ pool) : ∀ g ∈ last, g ∉ pool.eraseDups :=
      fun g hg => mt List.mem_eraseDups.1 (h g hg)
    have hcooling : ∀ ep, store'.isCoolingDown (now ep) ep = cooling ep := by
      intro ep
      simp only [cooling, JsonFileEndpointStore.isCoolingDown, JsonFileEndpointStore.cooldownRemaining, hcooldowns]
    rw [hplan, planCandidates_eq, lastFirst_of_notMem (hmem hlast), lastFirst_of_notMem (hmem hlast')]
    simp only [hcooling]

/-- The last good endpoint is not in the pool, and the first candidate is cooling down. -/
theorem planCandidates_order_outside :
    let pool := ["2.2.2.2:2408", "3.3.3.3:2408"]
    let cooldowns := Finmap.singleton "2.2.2.2:2408" 30
    planCandidates pool ⟨"", "", ⟨"1.1.1.1:2408", cooldowns⟩⟩ (fun _ => 5) = ["3.3.3.3:2408", "2.2.2.2:2408"] ∧
    planCandidates pool ⟨"", "", ⟨"", cooldowns⟩⟩ (fun _ => 5) = ["3.3.3.3:2408", "2.2.2.2:2408"] := by
  intro pool cooldowns
  have hplan : planCandidates pool ⟨"", "", ⟨"", cooldowns⟩⟩ (fun _ => 5) = ["3.3.3.3:2408", "2.2.2.2:2408"] := by
    decide
  have hsame := (planCandidates_order pool ⟨"", "", ⟨"", cooldowns⟩⟩ fun _ => 5).2.2.2.2.2
    ⟨"", "", ⟨"1.1.1.1:2408", cooldowns⟩⟩ rfl (by decide) (by decide)
  exact ⟨hsame.trans hplan, hplan⟩

end WarpSocks.Endpoint
