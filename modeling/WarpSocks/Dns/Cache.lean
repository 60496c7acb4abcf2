import WarpSocks.Dns.Resolve
import WarpSocks.Table.History

/-!
# The cache over a whole history

The calls of `get` and `put` on one cache, in the order in which they take its lock.  What `get` returns is what
the last `put` of the key wrote, before it expires; a key that was put last of all is found until it expires; and
there are never more than 512 entries.  `resolve_inner` uses the cache by these calls only
(`resolveInner_reached`).
-/

namespace WarpSocks.Dns

/-- A call on the cache, with what it sees of the clock. -/
inductive Call where
  | get (key : CacheKey) (now : Nat)
  | put (key : CacheKey) (addrs : List IpAddr) (ttlSecs : UInt32) (clearedAt writtenAt : Nat)

namespace Call

/-- The cache after the call. -/
def apply (cache : DnsCache) : Call → DnsCache
  | .get _ _ => cache
  | .put key addrs ttlSecs clearedAt writtenAt => cache.put key addrs ttlSecs clearedAt writtenAt

/-- The call is a `put` of the key. -/
def Puts (key : CacheKey) : Call → Prop
  | .get _ _ => False
  | .put key' _ _ _ _ => key' = key

/-- The entry a call writes. -/
def writes : Call → Option (CacheKey × CacheEntry)
  | .get _ _ => none
  | .put key addrs ttlSecs _ writtenAt =>
    some (key, ⟨addrs, writtenAt + ((Duration.fromSecs ttlSecs.toNat).clamp CACHE_MIN_TTL CACHE_MAX_TTL).asNanos⟩)

private theorem writesAt_iff (c : Call) (key : CacheKey) : Table.WritesAt writes c key ↔ c.Puts key := by
  cases c with
  | get _ _ => simp [Table.WritesAt, writes, Puts]
  | put key' addrs ttlSecs clearedAt writtenAt => simp [Table.WritesAt, writes, Puts]

end Call

/-- The cache is left as it was, or the key is put once. -/
def DnsCache.LeftOrPut (key : CacheKey) (cache cache' : DnsCache) : Prop :=
  cache' = cache ∨ ∃ addrs ttlSecs clearedAt writtenAt, cache' = cache.put key addrs ttlSecs clearedAt writtenAt

namespace Query

variable {q : Query} {s s' : Waiting} {e : Event} {r : Resolved}

private theorem cache_of_next (h : q.step s e = .next s') : s'.cache = s.cache := by
  unfold step at h
  split at h
  · split at h
    · split at h
      · cases h
      · cases h
        rfl
    · cases h
  · cases h
  · cases h
    rfl
  · cases h

private theorem cache_of_stop (h : q.step s e = .stop r) : s.cache.LeftOrPut q.key r.cache := by
  unfold step at h
  split at h
  · split at h
    · split at h
      · cases h
        unfold conclude
        split
        · exact .inr ⟨_, _, _, _, rfl⟩
        · exact .inl rfl
        · exact .inl rfl
      · cases h
    · cases h
      exact .inl rfl
  · cases h
    exact .inl rfl
  · cases h
  · cases h
    exact .inl rfl

end Query

namespace DnsCache

/-- The cache of a new network stack. -/
def empty : DnsCache := ⟨∅⟩

/-- The cache after the calls. -/
def after (calls : List Call) : DnsCache := calls.foldl Call.apply empty

private theorem after_append (calls calls' : List Call) :
    after (calls ++ calls') = calls'.foldl Call.apply (after calls) :=
  List.foldl_append

/-- Five seconds at least and five minutes at most. -/
private theorem clamped_ttl (ttlSecs : UInt32) :
    ((Duration.fromSecs ttlSecs.toNat).clamp CACHE_MIN_TTL CACHE_MAX_TTL).asNanos =
      min (max ttlSecs.toNat 5) 300 * 1000000000 := by
  rw [Duration.asNanos_clamp _ (by decide)]
  simp only [CACHE_MIN_TTL, CACHE_MAX_TTL, Duration.asNanos_fromSecs]
  omega

private theorem lookup_put_self (cache : DnsCache) (key : CacheKey) (addrs : List IpAddr) (ttlSecs : UInt32)
    (clearedAt writtenAt : Nat) :
    (cache.put key addrs ttlSecs clearedAt writtenAt).entries.lookup key =
      some ⟨addrs, writtenAt + ((Duration.fromSecs ttlSecs.toNat).clamp CACHE_MIN_TTL CACHE_MAX_TTL).asNanos⟩ :=
  Finmap.lookup_insert _

/-- A `put` of another key writes nothing under this one. -/
private theorem lookup_of_put_ne {cache : DnsCache} {key key' : CacheKey} (hne : key ≠ key') {addrs : List IpAddr}
    {ttlSecs : UInt32} {clearedAt writtenAt : Nat} {entry : CacheEntry}
    (h : (cache.put key' addrs ttlSecs clearedAt writtenAt).entries.lookup key = some entry) :
    cache.entries.lookup key = some entry := by
  unfold put at h
  dsimp only at h
  rw [Finmap.lookup_insert_of_ne _ hne] at h
  split at h
  · split at h
    · rw [Finmap.lookup_empty] at h
      cases h
    · rw [Finmap.lookup_retain, Option.filter_eq_some_iff] at h
      exact h.1
  · exact h

/-- A full cache is pruned, and emptied if that is not enough, before the entry is written. -/
private theorem size_put_le (cache : DnsCache) (key : CacheKey) (addrs : List IpAddr) (ttlSecs : UInt32)
    (clearedAt writtenAt : Nat) : (cache.put key addrs ttlSecs clearedAt writtenAt).entries.size ≤ 512 := by
  unfold put
  dsimp only
  refine Nat.le_trans (Finmap.size_insert_le _ _ _) ?_
  split
  · split
    · exact (by decide : 0 + 1 ≤ 512)
    · omega
  · omega

private theorem size_after_le (calls : List Call) : (after calls).entries.size ≤ 512 := by
  induction calls using List.reverseRecOn with
  | nil => exact Nat.zero_le 512
  | append_singleton calls c ih =>
    rw [after_append]
    cases c with
    | get key now => exact ih
    | put key addrs ttlSecs clearedAt writtenAt => exact size_put_le _ key addrs ttlSecs clearedAt writtenAt

/-- Every entry is that of the last `put` of its key. -/
private theorem standing_of_lookup {calls : List Call} {key : CacheKey} {entry : CacheEntry}
    (h : (after calls).entries.lookup key = some entry) :
    Table.Standing Call.writes (fun _ _ _ => False) calls key entry := by
  refine Table.Standing.of_held Call.apply (fun cache key => cache.entries.lookup key) empty
    (fun _ => Finmap.lookup_empty _) ?_ calls h
  intro calls c key entry h
  cases c with
  | get key' now => exact .inr ⟨by simp [Call.writesAt_iff, Call.Puts], not_false, h⟩
  | put key' addrs ttlSecs clearedAt writtenAt =>
    by_cases hkey : key = key'
    · subst hkey
      have hself := (lookup_put_self _ key addrs ttlSecs clearedAt writtenAt).symm.trans h
      exact .inl (by rw [Call.writes, Option.some.inj hself])
    · refine .inr ⟨?_, not_false, lookup_of_put_ne hkey h⟩
      rw [Call.writesAt_iff]
      exact fun heq => hkey heq.symm

/-- `put` is not called between: what was put is found. -/
private theorem after_of_no_put {calls since : List Call} (h : ∀ c ∈ since, ∀ key, ¬c.Puts key) :
    after (calls ++ since) = after calls := by
  rw [after_append]
  generalize after calls = cache
  induction since generalizing cache with
  | nil => rfl
  | cons c since ih =>
    cases c with
    | get key now => exact ih (fun c' hc' => h c' (List.mem_cons_of_mem _ hc')) cache
    | put key addrs ttlSecs clearedAt writtenAt => exact absurd rfl (h _ List.mem_cons_self key)

/-- What `get` returns was written by the last `put` of the key, and has not expired. -/
private theorem put_of_get {calls : List Call} {key : CacheKey} {t : Nat} {addrs : List IpAddr}
    (h : (after calls).get key t = some addrs) :
    ∃ before ttlSecs clearedAt writtenAt since, calls = before ++ .put key addrs ttlSecs clearedAt writtenAt ::
      since ∧ (∀ c ∈ since, ¬c.Puts key) ∧ t < writtenAt + min (max ttlSecs.toNat 5) 300 * 1000000000 := by
  unfold get at h
  split at h
  · cases h
  · rename_i entry hentry
    split at h
    · rename_i hfresh
      cases h
      obtain ⟨before, c, since, rfl, hwrites, hsince⟩ := standing_of_lookup hentry
      cases c with
      | get _ _ => cases hwrites
      | put key' addrs ttlSecs clearedAt writtenAt =>
        simp only [Call.writes, Option.some.injEq, Prod.mk.injEq] at hwrites
        obtain ⟨rfl, rfl⟩ := hwrites
        refine ⟨before, ttlSecs, clearedAt, writtenAt, since, rfl, ?_, ?_⟩
        · intro c hc
          obtain ⟨mid, rest, rfl⟩ := List.append_of_mem hc
          rw [← Call.writesAt_iff]
          exact (hsince mid c rest rfl).1
        · rwa [← clamped_ttl]
    · cases h

/-- What was put last of all is found until it expires. -/
private theorem get_of_put (calls : List Call) (key : CacheKey) (addrs : List IpAddr) {ttlSecs : UInt32}
    (clearedAt : Nat) {writtenAt : Nat} {since : List Call} {t : Nat} (hsince : ∀ c ∈ since, ∀ key', ¬c.Puts key')
    (ht : t < writtenAt + min (max ttlSecs.toNat 5) 300 * 1000000000) :
    (after (calls ++ .put key addrs ttlSecs clearedAt writtenAt :: since)).get key t = some addrs := by
  have hput : after (calls ++ .put key addrs ttlSecs clearedAt writtenAt :: since) =
      (after calls).put key addrs ttlSecs clearedAt writtenAt := by
    rw [List.append_cons, after_of_no_put hsince, after_append]
    rfl
  rw [hput, get, lookup_put_self]
  dsimp only
  rw [clamped_ttl, if_pos ht]

/-- `get` returns nothing, or what the last `put` of the key wrote and before that expires; what was put last of
all is found until it expires; and there are at most 512 entries. -/
theorem get_after (calls : List Call) (key : CacheKey) :
    (∀ t addrs, (after calls).get key t = some addrs → ∃ before ttlSecs clearedAt writtenAt since,
      calls = before ++ .put key addrs ttlSecs clearedAt writtenAt :: since ∧ (∀ c ∈ since, ¬c.Puts key) ∧
        t < writtenAt + min (max ttlSecs.toNat 5) 300 * 1000000000) ∧
    (∀ addrs ttlSecs clearedAt writtenAt since t, (∀ c ∈ since, ∀ key', ¬c.Puts key') →
      t < writtenAt + min (max ttlSecs.toNat 5) 300 * 1000000000 →
      (after (calls ++ .put key addrs ttlSecs clearedAt writtenAt :: since)).get key t = some addrs) ∧
    (after calls).entries.size ≤ 512 := by
  refine ⟨fun t addrs h => put_of_get h, ?_, size_after_le calls⟩
  intro addrs ttlSecs clearedAt writtenAt since t hsince ht
  exact get_of_put calls key addrs clearedAt hsince ht

/-- An address put for a minute is there a nanosecond before the minute is over. -/
theorem get_after_put_minute :
    let key : CacheKey := (.v4 (Ipv4Addr.new 1 1 1 1) 53, "a", .a)
    (after [.put key [.v4 (Ipv4Addr.new 10 0 0 1)] 60 0 0, .get key 7]).get key 59999999999 =
      some [.v4 (Ipv4Addr.new 10 0 0 1)] :=
  (get_after [] (.v4 (Ipv4Addr.new 1 1 1 1) 53, "a", .a)).2.1 _ 60 0 0 [.get _ 7] 59999999999
    (fun c hc key' => by rw [List.mem_singleton.1 hc]; exact not_false) (by decide)

end DnsCache

/-- `resolve_inner` writes to the cache once at most, and then by a `put` of its own key. -/
private theorem resolveInner_cache {debug : String → String} {server : SocketAddr} {name : String}
    {recordType : RecordType} {cache : DnsCache} {start : Start} {events : List Event} {r : Resolved}
    (h : resolveInner debug server name recordType cache start events = some r) :
    cache.LeftOrPut (server, name.toLower, recordType) r.cache := by
  unfold resolveInner at h
  dsimp only at h
  split at h
  · cases h
    exact .inl rfl
  · split at h
    · cases h
      exact .inl rfl
    · split at h
      · cases h
        exact .inl rfl
      · split at h
        · cases h
          exact .inl rfl
        · -- no round changes the cache but the last one
          refine Machine.run_result_induction _ (P := fun s : Waiting => s.cache = cache)
            (Q := fun r : Resolved => cache.LeftOrPut (server, name.toLower, recordType) r.cache) ?_ ?_ rfl h
          · intro s e s' hs he
            exact (Query.cache_of_next he).trans hs
          · rintro s e r rfl he
            exact Query.cache_of_stop he

/-- However names are resolved, the cache is one that `get` and `put` lead to. -/
theorem resolveInner_reached {debug : String → String} {server : SocketAddr} {name : String} {recordType : RecordType}
    {calls : List Call} {start : Start} {events : List Event} {r : Resolved}
    (h : resolveInner debug server name recordType (.after calls) start events = some r) :
    ∃ calls', r.cache = .after (calls ++ calls') := by
  rcases resolveInner_cache h with hsame | ⟨addrs, ttlSecs, clearedAt, writtenAt, hput⟩
  · exact ⟨[], by rw [List.append_nil, hsame]⟩
  · refine ⟨[.put (server, name.toLower, recordType) addrs ttlSecs clearedAt writtenAt], ?_⟩
    rw [hput, DnsCache.after_append]
    rfl

end WarpSocks.Dns
