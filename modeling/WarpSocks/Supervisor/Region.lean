import Mathlib.Data.List.Perm.Basic
import WarpSocks.Supervisor.Recover

/-!
# Psiphon entries over a whole run

The cached entries of `prepare_region`: whatever the shuffles are and wherever the budget ends, no index is out of
bounds in any run, and a list that is kept is the one that the round of the last egress has left, with the entry
that has led to it.  A round tries at most eight entries of its list, none of them twice, and that one first; a
round whose attempts have all failed, or that was cut, leaves no list behind, so that the next one is fetched anew
(`prepareRegion_attempts`).
-/

namespace WarpSocks.Supervisor

open Endpoint (SerdeJson)

/-! ### The order of the attempts -/

/-- A swap with the first place. -/
private theorem swapFirst_append (x y : Nat) (l₁ l₂ : List Nat) :
    swapFirst (x :: (l₁ ++ y :: l₂)) (l₁.length + 1) = y :: (l₁ ++ x :: l₂) := by
  simp [swapFirst, List.getD]

private theorem swapFirst_zero (x : Nat) (l : List Nat) : swapFirst (x :: l) 0 = x :: l := rfl

/-- The preferred entry goes to the front, and nothing else than the first one is moved. -/
private theorem swapFirst_spec {order : List Nat} {index y : Nat} (h : order[index]? = some y) :
    (swapFirst order index).Perm order ∧ (swapFirst order index).head? = some y := by
  cases order with
  | nil => nomatch h
  | cons x order =>
    cases index with
    | zero =>
      rw [swapFirst_zero]
      exact ⟨.refl _, h⟩
    | succ index =>
      obtain ⟨l₁, l₂, rfl, hlen⟩ : ∃ l₁ l₂, order = l₁ ++ y :: l₂ ∧ l₁.length = index := by
        obtain ⟨hlt, hget⟩ := List.getElem?_eq_some_iff.1 h
        rw [List.length_cons, Nat.succ_lt_succ_iff] at hlt
        refine ⟨order.take index, order.drop (index + 1), ?_, List.length_take_of_le (Nat.le_of_lt hlt)⟩
        rw [← hget, List.getElem_cons_succ, List.getElem_cons_drop, List.take_append_drop]
      subst hlen
      rw [swapFirst_append]
      exact ⟨(List.perm_middle.cons y).trans ((List.Perm.swap x y _).trans (List.perm_middle.symm.cons x)), rfl⟩

/-- Every entry stands once in the order, the preferred one first. -/
private theorem entryOrder_spec {order : List Nat} {n : Nat} (h : order.Perm (List.range n))
    (preferred : Option Nat) :
    (entryOrder order preferred).Perm (List.range n) ∧
      ∀ p, preferred = some p → p < n → (entryOrder order preferred).head? = some p := by
  cases preferred with
  | none => exact ⟨h, fun _ hp => nomatch hp⟩
  | some p =>
    cases hindex : order.idxOf? p with
    | none =>
      have hnot : p ∉ order := List.idxOf?_eq_none_iff.1 hindex
      refine ⟨by simpa [entryOrder, hindex] using h, fun p' hp' hlt => ?_⟩
      cases hp'
      exact (hnot (h.mem_iff.2 (List.mem_range.2 hlt))).elim
    | some index =>
      have hget : order[index]? = some p := by
        obtain ⟨hlt, hp, -⟩ := List.idxOf?_eq_some_iff.1 hindex
        exact List.getElem?_eq_some_iff.2 ⟨hlt, hp⟩
      obtain ⟨hperm, hhead⟩ := swapFirst_spec hget
      refine ⟨by simpa [entryOrder, hindex] using hperm.trans h, fun p' hp' _ => ?_⟩
      cases hp'
      simpa [entryOrder, hindex] using hhead

variable {O E : Type}

/-- The index of the preferred entry is that of an entry. -/
def CachedCandidates.InBounds (cache : CachedCandidates E) : Prop :=
  ∀ p, cache.preferred = some p → p < cache.entries.length

/-- A list is kept with the entry that has led to the last egress. -/
def Led (candidates : Option (CachedCandidates E)) : Prop :=
  ∀ cache, candidates = some cache → ∃ p, cache.preferred = some p ∧ p < cache.entries.length

/-- What the attempts come to. -/
structure Attempted (cache : CachedCandidates E) (order tried tried' : List Nat)
    (candidates : Option (CachedCandidates E)) (result : Prepared O) : Prop where
  front : ∃ k, (k = 0 → order = []) ∧ tried' = tried ++ order.take k
  /-- An egress was established through the last entry that was tried. -/
  ready : ∀ o, result = .ready o → ∃ p, tried'.getLast? = some p ∧
    candidates = some { cache with preferred := some p }
  failed : ∀ e, result = .failed e → candidates = none ∧ tried' = tried ++ order
  cut : result = .cut → candidates = some cache
  safe : result ≠ .panicked

private theorem Attempted.cons {cache : CachedCandidates E} {p : Nat} {order tried tried' : List Nat}
    {candidates : Option (CachedCandidates E)} {result : Prepared O}
    (h : Attempted cache order (tried ++ [p]) tried' candidates result) :
    Attempted cache (p :: order) tried tried' candidates result := by
  obtain ⟨k, -, htried⟩ := h.front
  refine ⟨⟨k + 1, fun h => (nomatch h), ?_⟩, h.ready, fun e he => ⟨(h.failed e he).1, ?_⟩, h.cut, h.safe⟩
  · rw [htried, List.take_succ_cons, List.append_assoc]
    rfl
  · rw [(h.failed e he).2, List.append_assoc]
    rfl

private theorem tryEntries_attempted (country : String) (input : RegionInput O E) (cache : CachedCandidates E)
    (order : List Nat)
    (hbounds : ∀ p ∈ order, p < cache.entries.length) (i : Nat) (lastError : Option Chain) (tried : List Nat) :
    let outcome := tryEntries country input cache i order lastError tried
    Attempted cache order tried outcome.2.1 outcome.1 outcome.2.2 := by
  induction order generalizing i lastError tried with
  | nil =>
    exact ⟨⟨0, fun _ => rfl, (List.append_nil _).symm⟩, fun _ h => (nomatch h),
      fun _ _ => ⟨rfl, (List.append_nil _).symm⟩, fun h => (nomatch h), fun h => nomatch h⟩
  | cons p order ih =>
    obtain ⟨entry, hentry⟩ : ∃ entry, cache.entries[p]? = some entry :=
      ⟨_, List.getElem?_eq_getElem (hbounds p List.mem_cons_self)⟩
    have hone : ∃ k, (k = 0 → p :: order = []) ∧ tried ++ [p] = tried ++ (p :: order).take k :=
      ⟨1, fun h => (nomatch h), rfl⟩
    rw [tryEntries, hentry]
    dsimp only
    cases hattempt : input.attempt i entry with
    | none => exact ⟨hone, fun _ h => (nomatch h), fun _ h => (nomatch h), fun _ => rfl, fun h => nomatch h⟩
    | some a =>
      dsimp only
      cases htry : tryEntry a with
      | ok o =>
        refine ⟨hone, fun _ _ => ⟨p, List.getLast?_concat, rfl⟩, fun _ h => (nomatch h), fun h => (nomatch h),
          fun h => nomatch h⟩
      | error e => exact (ih (fun q hq => hbounds q (List.mem_cons_of_mem p hq)) (i + 1) (some e) (tried ++ [p])).cons

/-- The list a round goes on with: the one it has, if that is not a day old, or a new one. -/
private theorem refreshCandidates_spec (input : RegionInput O E) {candidates : Option (CachedCandidates E)}
    (h : Led candidates) :
    (∀ cache, refreshCandidates input candidates = .ready cache → cache.InBounds) ∧
    refreshCandidates input candidates ≠ .panicked := by
  unfold refreshCandidates
  refine ⟨fun cache hready => ?_, ?_⟩
  · split at hready
    · rename_i cache' hfilter
      cases hready
      obtain ⟨p, hp, hlt⟩ := h cache (Option.filter_eq_some_iff.1 hfilter).1
      intro q hq
      rw [hp] at hq
      cases hq
      exact hlt
    · split at hready
      · nomatch hready
      · nomatch hready
      · cases hready
        exact fun p hp => nomatch hp
  · split
    · exact fun h => nomatch h
    · split <;> exact fun h => nomatch h

private theorem refreshCandidates_young {input : RegionInput O E} {cache : CachedCandidates E}
    (h : input.now - cache.fetched < 86400 * 1000000000) : refreshCandidates input (some cache) = .ready cache := by
  have hkeep : (some cache).filter (fun cache => decide (input.now - cache.fetched < 86400 * 1000000000)) =
      some cache :=
    Option.filter_eq_some_iff.2 ⟨rfl, decide_eq_true h⟩
  rw [refreshCandidates, hkeep]

/-- What a round does with the list it goes on with. -/
structure Round (cache : CachedCandidates E) (candidates : Option (CachedCandidates E)) (tried : List Nat)
    (result : Prepared O) : Prop where
  distinct : tried.Nodup
  bounded : tried.length ≤ 8
  entries : ∀ p ∈ tried, p < cache.entries.length
  /-- The preferred entry is tried first. -/
  first : ∀ p, cache.preferred = some p → tried.head? = some p
  ready : ∀ o, result = .ready o → ∃ p, tried.getLast? = some p ∧ candidates = some { cache with preferred := some p }
  failed : ∀ e, result = .failed e → candidates = none
  cut : result = .cut → candidates = some { cache with preferred := none }
  safe : result ≠ .panicked

private theorem round_of_refresh (country : String) {input : RegionInput O E}
    {candidates : Option (CachedCandidates E)}
    {cache : CachedCandidates E} (hcredentials : input.credentials = some (.ok ()))
    (hrefresh : refreshCandidates input candidates = .ready cache) (hbounds : cache.InBounds) :
    let outcome := prepareRegion country input candidates
    Round cache outcome.1 outcome.2.1 outcome.2.2 := by
  obtain ⟨hperm, hhead⟩ := entryOrder_spec (input.shuffle.perm cache.entries.length) cache.preferred
  let order := entryOrder (input.shuffle.order cache.entries.length) cache.preferred
  have hrun : prepareRegion country input candidates =
      tryEntries country input { cache with preferred := none } 0 (order.take 8) none [] := by
    rw [prepareRegion, hcredentials]
    simp only [hrefresh]
    rfl
  have hlt : ∀ p ∈ order.take 8, p < cache.entries.length := fun p hp =>
    List.mem_range.1 (hperm.mem_iff.1 (List.mem_of_mem_take hp))
  have hattempted := tryEntries_attempted country input { cache with preferred := none } (order.take 8) hlt 0 none []
  rw [hrun]
  obtain ⟨k, hk, htried⟩ := hattempted.front
  -- what was tried is a front of the order
  have hfront : (tryEntries country input { cache with preferred := none } 0 (order.take 8) none []).2.1 =
    order.take (min k 8) := by
    rw [htried, List.nil_append, List.take_take]
  refine ⟨?_, ?_, ?_, fun p hp => ?_, hattempted.ready, fun e he => (hattempted.failed e he).1, hattempted.cut,
    hattempted.safe⟩
  · rw [hfront]
    exact (hperm.nodup_iff.2 List.nodup_range).sublist (List.take_sublist _ _)
  · rw [hfront, List.length_take]
    omega
  · rw [hfront]
    exact fun p hp => List.mem_range.1 (hperm.mem_iff.1 (List.mem_of_mem_take hp))
  · have hpreferred : order.head? = some p := hhead p hp (hbounds p hp)
    have hpos : min k 8 ≠ 0 := by
      intro hzero
      have hempty : order.take 8 = [] := hk (by omega)
      rw [List.take_eq_nil_iff.1 hempty |>.resolve_left (by decide)] at hpreferred
      nomatch hpreferred
    rw [hfront, List.head?_take, if_neg hpos]
    exact hpreferred

/-- Whatever a round meets, it tries at most eight entries and none twice. -/
private theorem prepareRegion_tried (country : String) (input : RegionInput O E)
    {candidates : Option (CachedCandidates E)} (h : Led candidates) :
    (prepareRegion country input candidates).2.1.Nodup ∧
      (prepareRegion country input candidates).2.1.length ≤ 8 := by
  have hnone : ([] : List Nat).Nodup ∧ ([] : List Nat).length ≤ 8 := ⟨List.nodup_nil, by decide⟩
  match hcredentials : input.credentials with
  | none => simpa only [prepareRegion, hcredentials] using hnone
  | some (.error e) => simpa only [prepareRegion, hcredentials] using hnone
  | some (.ok ()) =>
    cases hrefresh : refreshCandidates input candidates with
    | ready cache =>
      have hround := round_of_refresh country hcredentials hrefresh ((refreshCandidates_spec input h).1 cache hrefresh)
      exact ⟨hround.distinct, hround.bounded⟩
    | failed e => simpa only [prepareRegion, hcredentials, hrefresh] using hnone
    | cut => simpa only [prepareRegion, hcredentials, hrefresh] using hnone
    | panicked => simpa only [prepareRegion, hcredentials, hrefresh] using hnone

/-- Unless the budget ends in it, a round keeps a list only with the entry that has led to its egress. -/
private theorem Round.led {cache : CachedCandidates E} {candidates : Option (CachedCandidates E)} {tried : List Nat}
    {result : Prepared O} (h : Round cache candidates tried result) (hcut : result ≠ .cut) : Led candidates := by
  intro cache' hcache'
  cases result with
  | ready o =>
    obtain ⟨p, hp, hcandidates⟩ := h.ready o rfl
    rw [hcandidates] at hcache'
    cases hcache'
    exact ⟨p, rfl, h.entries p (List.mem_of_getLast? hp)⟩
  | failed e =>
    rw [h.failed e rfl] at hcache'
    nomatch hcache'
  | cut => exact (hcut rfl).elim
  | panicked => exact (h.safe rfl).elim

/-- A list is left only by a round that has led to an egress, or that has failed before its first attempt. -/
def Leaves {α : Type} (candidates candidates' : Option (CachedCandidates E)) (tried : List Nat)
    (result : Prepared α) : Prop :=
  ∀ cache, candidates' = some cache →
    (∃ o p, result = .ready o ∧ tried.getLast? = some p ∧ cache.preferred = some p) ∨
      tried = [] ∧ candidates = some cache ∧ ∃ e, result = .failed e

private theorem Round.leaves {cache : CachedCandidates E} {candidates candidates' : Option (CachedCandidates E)}
    {tried : List Nat} {result : Prepared O} (h : Round cache candidates' tried result) (hcut : result ≠ .cut) :
    Leaves candidates candidates' tried result := by
  intro cache' hcache'
  cases result with
  | ready o =>
    obtain ⟨p, hp, hcandidates⟩ := h.ready o rfl
    rw [hcandidates] at hcache'
    cases hcache'
    exact .inl ⟨o, p, rfl, hp, rfl⟩
  | failed e =>
    rw [h.failed e rfl] at hcache'
    nomatch hcache'
  | cut => exact (hcut rfl).elim
  | panicked => exact (h.safe rfl).elim

private theorem prepareRegion_leaves (country : String) (input : RegionInput O E)
    {candidates : Option (CachedCandidates E)} (h : Led candidates) :
    let outcome := prepareRegion country input candidates
    outcome.2.2 ≠ .cut → Leaves candidates outcome.1 outcome.2.1 outcome.2.2 := by
  obtain ⟨hbounds, hsafe⟩ := refreshCandidates_spec input h
  -- a failure before the first attempt leaves the list as it was
  have hearly (e : Chain) : Leaves candidates candidates [] (.failed e : Prepared O) := fun cache hcache =>
    .inr ⟨rfl, hcache, e, rfl⟩
  rcases hcredentials : input.credentials with _ | e | _
  · rw [prepareRegion, hcredentials]
    exact fun hcut => (hcut rfl).elim
  · rw [prepareRegion, hcredentials]
    exact fun _ => hearly e
  · cases hrefresh : refreshCandidates input candidates with
    | cut =>
      rw [prepareRegion, hcredentials]
      simp only [hrefresh]
      exact fun hcut => (hcut rfl).elim
    | failed e =>
      rw [prepareRegion, hcredentials]
      simp only [hrefresh]
      exact fun _ => hearly e
    | panicked => exact (hsafe hrefresh).elim
    | ready cache => exact (round_of_refresh country hcredentials hrefresh (hbounds cache hrefresh)).leaves

private theorem prepareRegion_led (country : String) (input : RegionInput O E)
    {candidates : Option (CachedCandidates E)} (h : Led candidates) :
    let outcome := prepareRegion country input candidates
    outcome.2.2 ≠ .panicked ∧ (outcome.2.2 ≠ .cut → Led outcome.1) := by
  obtain ⟨hbounds, hsafe⟩ := refreshCandidates_spec input h
  rcases hcredentials : input.credentials with _ | e | _
  · rw [prepareRegion, hcredentials]
    exact ⟨fun h => (nomatch h), fun _ => h⟩
  · rw [prepareRegion, hcredentials]
    exact ⟨fun h => (nomatch h), fun _ => h⟩
  · cases hrefresh : refreshCandidates input candidates with
    | cut =>
      rw [prepareRegion, hcredentials]
      simp only [hrefresh]
      exact ⟨fun h => (nomatch h), fun _ => h⟩
    | failed e =>
      rw [prepareRegion, hcredentials]
      simp only [hrefresh]
      exact ⟨fun h => (nomatch h), fun _ => h⟩
    | panicked => exact (hsafe hrefresh).elim
    | ready cache =>
      have hround := round_of_refresh country hcredentials hrefresh (hbounds cache hrefresh)
      exact ⟨hround.safe, hround.led⟩

variable {json : SerdeJson} (config : Config)

private theorem tryCandidates_ne_panicked (input : WgInput O) (i : Nat) (candidates : List String)
    (store : Endpoint.JsonFileEndpointStore) (disk : Disk json) :
    (tryCandidates json config input i candidates store disk).2 ≠ .panicked := by
  induction candidates generalizing i store disk with
  | nil => exact fun h => by cases h
  | cons endpoint candidates ih =>
    unfold tryCandidates
    split
    · exact fun h => by cases h
    · dsimp only
      split
      · split <;> exact fun h => by cases h
      · split
        · exact ih _ _ _
        · exact fun h => by cases h

private theorem Prepared.map_eq_panicked {α β : Type} {f : α → β} {p : Prepared α} :
    p.map f = .panicked ↔ p = .panicked := by
  cases p <;> simp [Prepared.map]

private theorem Prepared.map_eq_cut {α β : Type} {f : α → β} {p : Prepared α} : p.map f = .cut ↔ p = .cut := by
  cases p <;> simp [Prepared.map]

private theorem prepareBase_ne_panicked (input : BaseInput O) (disk : Disk json) :
    (prepareBase json config input disk).2 ≠ .panicked := by
  have hwg : (prepareWireguard json config input.wg disk).2 ≠ .panicked := by
    unfold prepareWireguard
    split
    · exact fun h => by cases h
    · exact fun h => by cases h
    · dsimp only
      split
      · exact fun h => by cases h
      · split
        · exact fun h => by cases h
        · exact tryCandidates_ne_panicked _ _ _ _ _ _
  have hfallback : (prepareWireguard json config input.wg disk).2.map (Prod.map id some) ≠ .panicked := fun h =>
    hwg (Prepared.map_eq_panicked.1 h)
  unfold prepareBase
  dsimp only
  split
  · split
    · exact fun h => by cases h
    · split
      · exact fun h => by cases h
      · exact hfallback
  · exact hfallback

private theorem prepare_led (country : Option String) (input : Input O E) (disk : Disk json)
    {candidates : Option (CachedCandidates E)} (h : Led candidates) :
    let outcome := prepare json config country input disk candidates
    outcome.2.2 ≠ .panicked ∧ (outcome.2.2 ≠ .cut → Led outcome.2.1) := by
  have hbase := prepareBase_ne_panicked config input.base disk
  unfold prepare
  split
  · exact ⟨fun h => (nomatch h), fun _ => h⟩
  · exact ⟨fun h => (nomatch h), fun _ => h⟩
  · rename_i heq
    exact (hbase (congrArg Prod.snd heq)).elim
  · split
    · exact ⟨fun h => (nomatch h), fun _ => h⟩
    · rename_i country
      obtain ⟨hsafe, hled⟩ := prepareRegion_led country input.region h
      exact ⟨fun hp => hsafe (Prepared.map_eq_panicked.1 hp),
        fun hcut => hled fun hc => hcut (Prepared.map_eq_cut.2 hc)⟩

/-- The entries that a preparation tries: none, if there is no country or no WARP connection. -/
def triedBy (country : Option String) (input : Input O E) (disk : Disk json)
    (candidates : Option (CachedCandidates E)) :
    List Nat :=
  match country, (prepareBase json config input.base disk).2 with
  | some country, .ready _ => (prepareRegion country input.region candidates).2.1
  | _, _ => []

private theorem prepare_leaves (country : Option String) (input : Input O E) (disk : Disk json)
    {candidates : Option (CachedCandidates E)} (h : Led candidates) (hcountry : country = none → candidates = none)
    (hcut : (prepare json config country input disk candidates).2.2 ≠ .cut) :
    Leaves candidates (prepare json config country input disk candidates).2.1
      (triedBy config country input disk candidates) (prepare json config country input disk candidates).2.2 := by
  intro cache hcache
  have hbase := prepareBase_ne_panicked config input.base disk
  unfold prepare at hcut hcache ⊢
  unfold triedBy
  generalize prepareBase json config input.base disk = selected at hbase hcut hcache ⊢
  obtain ⟨disk', ⟨base, endpoint⟩ | e | _ | _⟩ := selected
  · cases country with
    | none =>
      rw [hcountry rfl] at hcache
      nomatch hcache
    | some country =>
      have hleaves := prepareRegion_leaves country input.region h fun hc => hcut (Prepared.map_eq_cut.2 hc)
      obtain ⟨o, p, hready, hp, hpreferred⟩ | ⟨htried, hsame, e, hfailed⟩ := hleaves cache hcache
      · exact .inl ⟨(o, endpoint), p, by simp only [hready, Prepared.map], hp, hpreferred⟩
      · exact .inr ⟨htried, hsame, e, by simp only [hfailed, Prepared.map]⟩
  · refine .inr ⟨?_, hcache, e, rfl⟩
    cases country <;> rfl
  · exact (hcut rfl).elim
  · exact (hbase rfl).elim

/-! ### Runs -/

variable {config} {country : Option String} {s s' : State json O E} {e : Event O E} {es : List (Event O E)}

/-- An egress that was published, with the entries that its round has tried and the list that it has left. -/
structure Egress (O E : Type) where
  outbound : O
  tried : List Nat
  candidates : Option (CachedCandidates E)

/-- The egress that a step publishes. -/
def egress? (config : Config) (country : Option String) (s : State json O E) (e : Event O E) (s' : State json O E) :
    Option (Egress O E) :=
  match e, s'.phase with
  | .prepared input, .ready o _ => some ⟨o, triedBy config country input s.disk s.candidates, s'.candidates⟩
  | _, _ => none

/-- The egresses of a run, in their order. -/
def egresses (config : Config) (country : Option String) : State json O E → List (Event O E) → List (Egress O E) :=
  Machine.outputs (State.step config country) (egress? config country)

/-- The list that is kept is the one that the round of the last egress has left, with the last entry it has
tried. -/
def FromLast (country : Option String) (past : List (Egress O E)) (candidates : Option (CachedCandidates E)) : Prop :=
  ∀ cache, candidates = some cache → country ≠ none ∧ ∃ egress p, past.getLast? = some egress ∧
    egress.candidates = some cache ∧ egress.tried.getLast? = some p ∧ cache.preferred = some p

private theorem afterPrepare_led {outcome : Disk json × Option (CachedCandidates E) × Prepared (O × Option String)}
    (hsafe : outcome.2.2 ≠ .panicked) (hled : outcome.2.2 ≠ .cut → Led outcome.2.1) :
    (s.afterPrepare outcome).phase ≠ .panicked ∧ Led (s.afterPrepare outcome).candidates := by
  obtain ⟨disk, candidates, ⟨outbound, endpoint⟩ | error | _ | _⟩ := outcome
  · exact ⟨fun h => (nomatch h), hled fun h => (nomatch h)⟩
  · exact ⟨fun h => (nomatch h), hled fun h => (nomatch h)⟩
  · exact ⟨fun h => (nomatch h), fun _ h => (nomatch h)⟩
  · exact (hsafe rfl).elim

/-- Only a preparation changes the list, and only a launch forgets it without one. -/
private theorem step_candidates (h : s.step config country e = some s') :
    (∃ input, e = .prepared input ∧ s' = s.afterPrepare (prepare json config country input s.disk s.candidates)) ∨
      e.input? = none ∧ s'.phase ≠ .panicked ∧ (s'.candidates = s.candidates ∨ s'.candidates = none) := by
  cases e with
  | prepared input =>
    simp only [State.step] at h
    split at h
    · cases h
      exact .inl ⟨input, rfl, rfl⟩
    · cases h
  | invalidated result =>
    simp only [State.step] at h
    split at h <;> cases h <;> refine .inr ⟨rfl, ?_, .inl rfl⟩
    case h_5 => dsimp only; split <;> exact fun h => by cases h
    all_goals exact fun h => by cases h
  | recorded now written =>
    simp only [State.step] at h
    split at h
    · cases h
      exact .inr ⟨rfl, fun h => (by cases h), .inl rfl⟩
    · cases h
  | watched event written =>
    simp only [State.step] at h
    split at h
    · split at h <;> cases h <;> exact .inr ⟨rfl, fun h => (by cases h), .inl rfl⟩
    · cases h
  | blamed readable load mark =>
    simp only [State.step] at h
    split at h
    · cases h
      exact .inr ⟨rfl, fun h => (by cases h), .inl rfl⟩
    · cases h
  | delayed millis =>
    simp only [State.step] at h
    split at h
    · obtain ⟨-, heq⟩ := Option.ite_none_right_eq_some.1 h
      cases heq
      exact .inr ⟨rfl, fun h => (by cases h), .inl rfl⟩
    · cases h
  | woken =>
    simp only [State.step] at h
    split at h
    · cases h
      exact .inr ⟨rfl, fun h => (by cases h), .inl rfl⟩
    · cases h
  | relaunched =>
    cases h
    exact .inr ⟨rfl, fun h => (by cases h), .inr rfl⟩

private theorem led_step (hs : s.phase ≠ .panicked ∧ Led s.candidates) (h : s.step config country e = some s') :
    s'.phase ≠ .panicked ∧ Led s'.candidates := by
  obtain ⟨input, -, rfl⟩ | ⟨-, hphase, hcandidates | hcandidates⟩ := step_candidates h
  · obtain ⟨hsafe, hled⟩ := prepare_led config country input s.disk hs.2
    exact afterPrepare_led hsafe hled
  · exact ⟨hphase, hcandidates ▸ hs.2⟩
  · rw [hcandidates]
    exact ⟨hphase, fun _ h => nomatch h⟩

/-- What a preparation leaves behind in the state. -/
private theorem afterPrepare_leaves {outcome : Disk json × Option (CachedCandidates E) × Prepared
    (O × Option String)} {tried : List Nat}
    (hleaves : outcome.2.2 ≠ .cut → Leaves s.candidates outcome.2.1 tried outcome.2.2) {cache : CachedCandidates E}
    (hcache : (s.afterPrepare outcome).candidates = some cache) :
    (∃ o endpoint p, (s.afterPrepare outcome).phase = .ready o endpoint ∧ tried.getLast? = some p ∧
      cache.preferred = some p) ∨
    (s.afterPrepare outcome).phase = .backingOff ∧ tried = [] ∧ s.candidates = some cache ∧
    ∃ e, outcome.2.2 = .failed e := by
  obtain ⟨disk, candidates, ⟨outbound, endpoint⟩ | error | _ | _⟩ := outcome
  · obtain ⟨o, p, -, hp, hpreferred⟩ | ⟨-, -, e, hfailed⟩ := hleaves (fun h => nomatch h) cache hcache
    · exact .inl ⟨outbound, endpoint, p, rfl, hp, hpreferred⟩
    · nomatch hfailed
  · obtain ⟨o, p, hready, -⟩ | ⟨htried, hsame, hfailed⟩ := hleaves (fun h => nomatch h) cache hcache
    · nomatch hready
    · exact .inr ⟨rfl, htried, hsame, hfailed⟩
  · nomatch hcache
  · obtain ⟨o, p, hready, -⟩ | ⟨-, -, e, hfailed⟩ := hleaves (fun h => nomatch h) cache hcache
    · nomatch hready
    · nomatch hfailed

private theorem FromLast.none_of_none {past : List (Egress O E)} {candidates : Option (CachedCandidates E)}
    (h : FromLast country past candidates) (hcountry : country = none) : candidates = none := by
  cases candidates with
  | none => rfl
  | some cache => exact ((h cache rfl).1 hcountry).elim

private theorem fromLast_step {past : List (Egress O E)} (hled : Led s.candidates)
    (hs : FromLast country past s.candidates) (h : s.step config country e = some s') :
    FromLast country (past ++ (egress? config country s e s').toList) s'.candidates := by
  intro cache hcache
  obtain ⟨input, rfl, rfl⟩ | ⟨hinput, -, hcandidates | hcandidates⟩ := step_candidates h
  · obtain ⟨o, endpoint, p, hphase, hp, hpreferred⟩ | ⟨hphase, -, hsame, -⟩ :=
      afterPrepare_leaves (prepare_leaves config country input s.disk hled hs.none_of_none) hcache
    · refine ⟨fun hcountry => ?_, ⟨o, triedBy config country input s.disk s.candidates, some cache⟩, p, ?_, rfl, hp,
        hpreferred⟩
      · -- without a country nothing is tried
        rw [hcountry] at hp
        nomatch hp
      · simp only [egress?, hphase, Option.toList_some, List.getLast?_concat, hcache]
    · simpa only [egress?, hphase, Option.toList_none, List.append_nil] using hs cache hsame
  · have hnone : egress? config country s e s' = none := by
      cases e with
      | prepared input => nomatch hinput
      | _ => rfl
    rw [hnone, Option.toList_none, List.append_nil]
    exact hs cache (hcandidates ▸ hcache)
  · rw [hcandidates] at hcache
    nomatch hcache

/-- In every run the supervisor never indexes outside its list of entries, and the list that it keeps is the one
that the round of the last egress of the run has left, with the last entry that this round has tried as the one to
begin with.  Whatever a round behind the run meets, it tries at most eight entries and none twice; if it gets its
credentials and the list is not a day old it begins with this entry, and all it tries are entries of the list it
goes on with.  A preparation leaves a list behind only if it has led to an egress, through the last entry it has
tried, or if it has failed, and was not cut, before it has tried any; then the list is as it was. -/
theorem prepareRegion_attempts (json : SerdeJson) (config : Config) (country : Option String) (heartbeat : String)
    (disk : Disk json) (es : List (Event O E)) (s : State json O E)
    (h : Machine.exec (State.step config country) (.launch heartbeat disk) es = some s) :
    s.phase ≠ .panicked ∧
    (∀ cache, s.candidates = some cache → ∃ egress p,
      (egresses config country (.launch heartbeat disk) es).getLast? = some egress ∧
      egress.candidates = some cache ∧ egress.tried.getLast? = some p ∧ cache.preferred = some p) ∧
    (∀ (name : String) (input : RegionInput O E),
      let outcome := prepareRegion name input s.candidates
      (outcome.2.1.Nodup ∧ outcome.2.1.length ≤ 8) ∧ (input.credentials = some (.ok ()) →
        (∀ cache, s.candidates = some cache → input.now - cache.fetched < 86400 * 1000000000 →
          ∃ p, cache.preferred = some p ∧ outcome.2.1.head? = some p) ∧
        ∀ cache, refreshCandidates input s.candidates = .ready cache →
          Round cache outcome.1 outcome.2.1 outcome.2.2)) ∧
    ∀ (input : Input O E) s', s.step config country (.prepared input) = some s' →
      ∀ cache, s'.candidates = some cache →
      let tried := triedBy config country input s.disk s.candidates
      (∃ o endpoint p, s'.phase = .ready o endpoint ∧ tried.getLast? = some p ∧ cache.preferred = some p) ∨
        s'.phase = .backingOff ∧ tried = [] ∧ s.candidates = some cache ∧
          ∃ e, (prepare json config country input s.disk s.candidates).2.2 = .failed e := by
  have hlaunch : (State.launch heartbeat disk : State json O E).phase ≠ .panicked ∧
      Led (State.launch heartbeat disk : State json O E).candidates :=
    ⟨fun h => (nomatch h), fun _ h => (nomatch h)⟩
  obtain ⟨⟨hphase, hled⟩, hlast⟩ : (s.phase ≠ .panicked ∧ Led s.candidates) ∧
      FromLast country (egresses config country (.launch heartbeat disk) es) s.candidates := by
    refine Machine.exec_induction_run (P := fun es s => (s.phase ≠ .panicked ∧ Led s.candidates) ∧
      FromLast country (egresses config country (.launch heartbeat disk) es) s.candidates) ?_
      ⟨hlaunch, fun _ h => (by cases h)⟩ h
    rintro es s e s' hrun ⟨hs, hlast⟩ hstep
    refine ⟨led_step hs hstep, ?_⟩
    rw [egresses, Machine.outputs_concat _ hrun hstep]
    exact fromLast_step hs.2 hlast hstep
  refine ⟨hphase, fun cache hcache => (hlast cache hcache).2,
    fun name input => ⟨prepareRegion_tried name input hled, fun hcredentials => ?_⟩,
    fun input s' hstep cache hcache => ?_⟩
  · have hround (cache : CachedCandidates E) (hready : refreshCandidates input s.candidates = .ready cache) :
        let outcome := prepareRegion name input s.candidates
        Round cache outcome.1 outcome.2.1 outcome.2.2 :=
      round_of_refresh name hcredentials hready ((refreshCandidates_spec input hled).1 cache hready)
    refine ⟨fun cache hcache hyoung => ?_, hround⟩
    obtain ⟨p, hp, -⟩ := hled cache hcache
    exact ⟨p, hp, (hround cache (by rw [hcache, refreshCandidates_young hyoung])).first p hp⟩
  · obtain ⟨input', heq, rfl⟩ | ⟨hinput, -⟩ := step_candidates hstep
    · cases heq
      exact afterPrepare_leaves (prepare_leaves config country input s.disk hled hlast.none_of_none) hcache
    · nomatch hinput

/-- The second entry leads to an egress, and the next round begins with it. -/
theorem prepareRegion_attempts_preferred :
    let config : Config := ⟨true, "", "/data/endpoint.json", "/data", .fromSecs 600, ⟨.fromSecs 10, .fromSecs 5, 2⟩⟩
    let masque : MasqueAttempt Nat := ⟨.ok (), .ok 7, [.ok ()]⟩
    let wg : WgInput Nat := ⟨none, true, ⟨0, .done⟩, fun _ => 0, fun _ => none, fun _ => ⟨0, .done⟩⟩
    let attempt : Nat → Nat → Option (RegionAttempt Nat)
      | 0, _ => some ⟨none, .ok 8, []⟩
      | _, _ => some ⟨some (.ok ()), .ok 8, [.ok ()]⟩
    let region : RegionInput Nat Nat := ⟨some (.ok ()), 3, some (.ok [10, 20]), 4, ⟨List.range, fun _ => .refl _⟩,
      attempt⟩
    let es : List (Event Nat Nat) :=
      [.invalidated (.ok ()), .invalidated (.ok ()), .prepared ⟨⟨some masque, wg⟩, region⟩]
    ∃ s : State .plain Nat Nat, Machine.exec (State.step config (some "US")) (.launch "" ⟨none, []⟩) es = some s ∧
      s.channel.value = some 8 ∧ (prepareRegion "US" region s.candidates).2.1.head? = some 1 ∧
      ∃ egress, (egresses config (some "US") (.launch "" ⟨none, []⟩ : State .plain Nat Nat) es).getLast? =
        some egress ∧ egress.tried.getLast? = some 1 := by
  intro config masque wg attempt region es
  obtain ⟨-, hlast, hattempts, -⟩ := prepareRegion_attempts .plain config (some "US") "" ⟨none, []⟩ es _ rfl
  obtain ⟨p, hp, hhead⟩ := ((hattempts "US" region).2 rfl).1 ⟨[10, 20], 4, some 1⟩ rfl (by decide)
  cases hp
  obtain ⟨egress, p, hegress, -, htried, hp⟩ := hlast ⟨[10, 20], 4, some 1⟩ rfl
  cases hp
  exact ⟨_, rfl, rfl, hhead, egress, hegress, htried⟩

end WarpSocks.Supervisor
