import Mathlib.Data.List.MinMax
import WarpSocks.Net
import WarpSocks.Time
import WarpSocks.Table.Entries
import WarpSocks.Table.History

/-!
# The cache of the DNS over HTTPS resolver

`cached` and `store` of the second DNS cache.  It drops an expired entry when it meets one, and makes room for a
new domain by dropping all expired entries or, if there are none, an entry that expires first.  The order in which
the map is visited, which decides between entries that expire together, is a parameter of each call.  Instants are
in nanoseconds.
-/

namespace WarpSocks.Doh

def MIN_TTL : Duration := .fromSecs 5

def MAX_TTL : Duration := .fromSecs 300

def MAX_CACHE_ENTRIES : Nat := 512

/-- `CacheEntry`. -/
structure CacheEntry where
  ip : IpAddr
  expiresAt : Nat
  deriving DecidableEq

/-- The entries of `DnsCache`. -/
abbrev Entries := Finmap fun _ : String => CacheEntry

/-- The order in which the entries are visited. -/
abbrev Visit := Finmap.Visit fun _ : String => CacheEntry

/-- The entries that have not expired. -/
def unexpired (entries : Entries) (now : Nat) : Entries :=
  entries.retain fun _ entry => decide (now < entry.expiresAt)

/-- `DnsCache::cached`: the answer, and the entries afterwards. -/
def cached (entries : Entries) (domain : String) (now : Nat) : Option IpAddr × Entries :=
  match entries.lookup domain with
  | some entry => if now < entry.expiresAt then (some entry.ip, entries) else (none, entries.erase domain)
  | none => (none, entries)

/-- The first half of `DnsCache::store`: a new domain finds less than `MAX_CACHE_ENTRIES`. -/
def makeRoom (visit : Visit) (entries : Entries) (domain : String) (now : Nat) : Entries :=
  if entries.lookup domain = none ∧ MAX_CACHE_ENTRIES ≤ entries.size then
    let entries := unexpired entries now
    if MAX_CACHE_ENTRIES ≤ entries.size then
      match (visit.list entries).argmin fun entry => entry.2.expiresAt with
      | some victim => entries.erase victim.1
      | none => entries
    else entries
  else entries

/-- `DnsCache::store`. -/
def store (visit : Visit) (entries : Entries) (domain : String) (ip : IpAddr) (ttl : Duration) (now : Nat) :
    Entries :=
  (makeRoom visit entries domain now).insert domain ⟨ip, now + (ttl.clamp MIN_TTL MAX_TTL).asNanos⟩

/-! ### Making room -/

section Room

variable {visit : Visit} {entries : Entries} {domain : String} {now : Nat}

private theorem lookup_unexpired (entries : Entries) (now : Nat) (d : String) :
    (unexpired entries now).lookup d = (entries.lookup d).filter fun entry => decide (now < entry.expiresAt) :=
  Finmap.lookup_retain _ entries d

/-- No more than 512 entries, and as many unexpired ones: all are unexpired. -/
private theorem unexpired_eq_self (hsize : entries.size ≤ 512) (h : 512 ≤ (unexpired entries now).size) :
    unexpired entries now = entries :=
  Finmap.retain_eq_self_of_size (Nat.le_antisymm (Finmap.size_retain_le _ _) (Nat.le_trans hsize h))

/-- What making room does: nothing if the domain is there or there is room; else it drops the expired entries if
there are any, and one that expires first if there are none. -/
private theorem makeRoom_cases (visit : Visit) (domain : String) (now : Nat) (hsize : entries.size ≤ 512) :
    ((domain ∈ entries ∨ entries.size < 512) ∧ makeRoom visit entries domain now = entries) ∨
    (domain ∉ entries ∧ (unexpired entries now).size < 512 ∧
      makeRoom visit entries domain now = unexpired entries now) ∨
    (domain ∉ entries ∧ (unexpired entries now).size = 512 ∧ ∃ victim entry, entries.lookup victim = some entry ∧
      (∀ d e, entries.lookup d = some e → entry.expiresAt ≤ e.expiresAt) ∧
      makeRoom visit entries domain now = entries.erase victim) := by
  unfold makeRoom MAX_CACHE_ENTRIES
  dsimp only
  split
  · rename_i hfull
    have habsent : domain ∉ entries := Finmap.lookup_eq_none.1 hfull.1
    split
    · rename_i hmany
      have hall : unexpired entries now = entries := unexpired_eq_self hsize hmany
      have hcount : (unexpired entries now).size = 512 := by rw [hall] at hmany ⊢; omega
      rw [hall]
      refine .inr (.inr ⟨habsent, hall ▸ hcount, ?_⟩)
      split
      · rename_i victim hvictim
        refine ⟨victim.1, victim.2, Finmap.mem_visit.1 (List.argmin_mem hvictim), ?_, rfl⟩
        intro d e he
        exact List.le_of_mem_argmin (f := fun entry => entry.2.expiresAt) (Finmap.mem_visit.2 he) hvictim
      · -- 512 entries are not visited in no step
        rename_i hnone
        have hnil : visit.list entries = [] := List.argmin_eq_none.1 hnone
        have hzero : entries.size = 0 := by rw [Finmap.size, ← visit.coe_list, hnil]; rfl
        omega
    · exact .inr (.inl ⟨habsent, by omega, rfl⟩)
  · rename_i hroom
    refine .inl ⟨?_, rfl⟩
    by_cases hmem : domain ∈ entries
    · exact .inl hmem
    · exact .inr (Nat.lt_of_not_le fun hfull => hroom ⟨Finmap.lookup_eq_none.2 hmem, hfull⟩)

/-- No entry is changed or added. -/
private theorem lookup_of_makeRoom (hsize : entries.size ≤ 512) {d : String} {e : CacheEntry}
    (h : (makeRoom visit entries domain now).lookup d = some e) : entries.lookup d = some e := by
  rcases makeRoom_cases visit domain now hsize with ⟨-, heq⟩ | ⟨-, -, heq⟩ | ⟨-, -, victim, entry, -, -, heq⟩
  · rwa [heq] at h
  · rw [heq, lookup_unexpired, Option.filter_eq_some_iff] at h
    exact h.1
  · rw [heq] at h
    exact Finmap.lookup_of_erase h

private theorem size_store_le (ip : IpAddr) (ttl : Duration) (hsize : entries.size ≤ 512) :
    (store visit entries domain ip ttl now).size ≤ 512 := by
  unfold store
  rcases makeRoom_cases visit domain now hsize with ⟨hmem | hlt, heq⟩ | ⟨-, hlt, heq⟩ | ⟨-, hcount, victim, entry,
    hv, -, heq⟩
  · rw [heq, Finmap.size_insert_of_mem _ hmem]
    exact hsize
  · rw [heq]
    exact Nat.le_trans (Finmap.size_insert_le _ _ _) hlt
  · rw [heq]
    exact Nat.le_trans (Finmap.size_insert_le _ _ _) hlt
  · have hmem : victim ∈ entries := Finmap.mem_iff.2 ⟨entry, hv⟩
    have herase := Finmap.size_erase_of_mem hmem
    have hinsert := Finmap.size_insert_le domain ⟨ip, now + (ttl.clamp MIN_TTL MAX_TTL).asNanos⟩
      (entries.erase victim)
    rw [heq]
    omega

end Room

/-! ### Sequences of calls -/

/-- A call on the cache, with what it sees of the clock. -/
inductive Call where
  | cached (domain : String) (now : Nat)
  | store (visit : Visit) (domain : String) (ip : IpAddr) (ttl : Duration) (now : Nat)

namespace Call

def now : Call → Nat
  | .cached _ now => now
  | .store _ _ _ _ now => now

/-- The entries after the call. -/
def apply (entries : Entries) : Call → Entries
  | .cached domain now => (Doh.cached entries domain now).2
  | .store visit domain ip ttl now => Doh.store visit entries domain ip ttl now

/-- What a call writes: the address and when it expires. -/
def writes : Call → Option (String × CacheEntry)
  | .cached _ _ => none
  | .store _ domain ip ttl now => some (domain, ⟨ip, now + (ttl.clamp MIN_TTL MAX_TTL).asNanos⟩)

end Call

/-- The call drops the unexpired entry of `d`. -/
def Evicts (entries : Entries) (c : Call) (d : String) : Prop :=
  ∃ entry, entries.lookup d = some entry ∧ c.now < entry.expiresAt ∧ (c.apply entries).lookup d = none

/-- The entries after the calls. -/
def after (calls : List Call) : Entries := calls.foldl Call.apply ∅

/-- `entry` is what the last `store` for `d` wrote, and it has not been evicted since. -/
def Stored (calls : List Call) (d : String) (entry : CacheEntry) : Prop :=
  Table.Standing Call.writes (fun before c d => Evicts (after before) c d) calls d entry

theorem after_concat (calls : List Call) (c : Call) : after (calls ++ [c]) = c.apply (after calls) :=
  List.foldl_append

section Calls

variable {entries : Entries} {c : Call} {d : String} {e : CacheEntry}

private theorem cached_cases (entries : Entries) (domain : String) (now : Nat) :
    (cached entries domain now).2 = entries ∨
      ∃ entry, entries.lookup domain = some entry ∧ entry.expiresAt ≤ now ∧
        (cached entries domain now).2 = entries.erase domain := by
  unfold cached
  split
  · rename_i entry hentry
    split
    · exact .inl rfl
    · exact .inr ⟨entry, hentry, by omega, rfl⟩
  · exact .inl rfl

private theorem size_apply_le (hsize : entries.size ≤ 512) : (c.apply entries).size ≤ 512 := by
  cases c with
  | cached domain now =>
    rcases cached_cases entries domain now with heq | ⟨-, -, -, heq⟩
    · rwa [Call.apply, heq]
    · rw [Call.apply, heq]
      exact Nat.le_trans (Finmap.size_erase_le _ _) hsize
  | store visit domain ip ttl now => exact size_store_le ip ttl hsize

private theorem size_after_le (calls : List Call) : (after calls).size ≤ 512 := by
  induction calls using List.reverseRecOn with
  | nil => exact Nat.zero_le 512
  | append_singleton calls c ih =>
    rw [after_concat]
    exact size_apply_le ih

/-- After a call there is what it wrote. -/
private theorem lookup_apply_of_writes (h : c.writes = some (d, e)) : (c.apply entries).lookup d = some e := by
  cases c with
  | cached domain now => cases h
  | store visit domain ip ttl now =>
    cases h
    exact Finmap.lookup_insert _

/-- What is there after a call was written by it or was there before. -/
private theorem lookup_of_apply (hsize : entries.size ≤ 512) (h : (c.apply entries).lookup d = some e) :
    c.writes = some (d, e) ∨ (¬Table.WritesAt Call.writes c d ∧ entries.lookup d = some e) := by
  cases c with
  | cached domain now =>
    refine .inr ⟨?_, ?_⟩
    · rintro ⟨b, hb⟩
      cases hb
    · rcases cached_cases entries domain now with heq | ⟨-, -, -, heq⟩
      · rwa [Call.apply, heq] at h
      · rw [Call.apply, heq] at h
        exact Finmap.lookup_of_erase h
  | store visit domain ip ttl now =>
    by_cases hd : d = domain
    · subst hd
      rw [lookup_apply_of_writes rfl] at h
      cases h
      exact .inl rfl
    · refine .inr ⟨?_, ?_⟩
      · rintro ⟨b, hb⟩
        cases hb
        exact hd rfl
      · rw [Call.apply, store, Finmap.lookup_insert_of_ne _ hd] at h
        exact lookup_of_makeRoom hsize h

/-- Only a `store` of a domain that is not there evicts an entry, and only if there are 512 unexpired ones. -/
private theorem Evicts.full (hsize : entries.size ≤ 512) (h : Evicts entries c d) :
    ∃ visit domain ip ttl now, c = .store visit domain ip ttl now ∧ domain ∉ entries ∧
      (unexpired entries now).size = 512 := by
  obtain ⟨entry, hentry, hfresh, hnone⟩ := h
  cases c with
  | cached domain now =>
    rcases cached_cases entries domain now with heq | ⟨old, hold, hexpired, heq⟩
    · rw [Call.apply, heq, hentry] at hnone
      cases hnone
    · -- only an expired entry is dropped
      rw [Call.apply, heq] at hnone
      by_cases hd : d = domain
      · subst hd
        rw [hold] at hentry
        cases hentry
        exact absurd hfresh (Nat.not_lt.2 hexpired)
      · rw [Finmap.lookup_erase_ne hd, hentry] at hnone
        cases hnone
  | store visit domain ip ttl now =>
    have hd : d ≠ domain := by
      rintro rfl
      rw [lookup_apply_of_writes rfl] at hnone
      cases hnone
    rw [Call.apply, store, Finmap.lookup_insert_of_ne _ hd] at hnone
    rcases makeRoom_cases visit domain now hsize with ⟨-, heq⟩ | ⟨-, -, heq⟩ | ⟨habsent, hcount, -⟩
    · rw [heq, hentry] at hnone
      cases hnone
    · have hkept : (unexpired entries now).lookup d = some entry := by
        rw [lookup_unexpired, hentry]
        exact Option.filter_some_pos (decide_eq_true hfresh)
      rw [heq, hkept] at hnone
      cases hnone
    · exact ⟨visit, domain, ip, ttl, now, rfl, habsent, hcount⟩

/-- In a cache of 512 unexpired entries, a `store` of another domain evicts one entry, and that expires first. -/
private theorem evicts_store_iff {visit : Visit} {domain : String} {now : Nat} (ip : IpAddr) (ttl : Duration)
    (hsize : entries.size ≤ 512) (habsent : domain ∉ entries) (hcount : (unexpired entries now).size = 512) :
    ∃ victim entry, entries.lookup victim = some entry ∧
      (∀ d e, entries.lookup d = some e → entry.expiresAt ≤ e.expiresAt) ∧
      ∀ d, Evicts entries (.store visit domain ip ttl now) d ↔ d = victim := by
  have hall : unexpired entries now = entries := unexpired_eq_self hsize (Nat.le_of_eq hcount.symm)
  rcases makeRoom_cases visit domain now hsize with
    ⟨hmem | hlt, -⟩ | ⟨-, hlt, -⟩ | ⟨-, -, victim, entry, hvictim, hmin, heq⟩
  · exact absurd hmem habsent
  · rw [hall] at hcount
    omega
  · omega
  · refine ⟨victim, entry, hvictim, hmin, fun d => ?_⟩
    constructor
    · rintro ⟨e, he, -, hnone⟩
      have hd : d ≠ domain := by
        rintro rfl
        exact habsent (Finmap.mem_iff.2 ⟨e, he⟩)
      rw [Call.apply, store, Finmap.lookup_insert_of_ne _ hd, heq] at hnone
      by_contra hne
      rw [Finmap.lookup_erase_ne hne, he] at hnone
      cases hnone
    · rintro rfl
      have hfresh : now < entry.expiresAt := by
        have hkept : (unexpired entries now).lookup d = some entry := by rw [hall, hvictim]
        rw [lookup_unexpired, Option.filter_eq_some_iff] at hkept
        exact of_decide_eq_true hkept.2
      have hd : d ≠ domain := by
        rintro rfl
        exact habsent (Finmap.mem_iff.2 ⟨entry, hvictim⟩)
      refine ⟨entry, hvictim, hfresh, ?_⟩
      rw [Call.apply, store, Finmap.lookup_insert_of_ne _ hd, heq, Finmap.lookup_erase]

end Calls

/-- What is there was stored last and not evicted. -/
theorem stored_of_lookup {calls : List Call} {d : String} {e : CacheEntry} (h : (after calls).lookup d = some e) :
    Stored calls d e := by
  refine Table.Standing.of_held Call.apply (fun entries d => entries.lookup d) ∅
    (fun _ => Finmap.lookup_empty _) ?_ calls h
  intro calls c d e h
  rcases lookup_of_apply (size_after_le calls) h with hwrites | ⟨hwrites, hbefore⟩
  · exact .inl hwrites
  · refine .inr ⟨hwrites, ?_, hbefore⟩
    rintro ⟨-, -, -, hnone⟩
    rw [after] at hnone
    rw [h] at hnone
    cases hnone

/-- What was stored last and not evicted is there until a call that sees it expired. -/
private theorem lookup_of_stored {calls : List Call} {d : String} {e : CacheEntry} (h : Stored calls d e)
    (hclock : ∀ c ∈ calls, c.now < e.expiresAt) : (after calls).lookup d = some e := by
  induction calls using List.reverseRecOn with
  | nil => exact absurd h Table.not_standing_nil
  | append_singleton calls c ih =>
    rw [after_concat]
    rcases Table.standing_concat.1 h with hwrites | ⟨hwrites, hkept, hbefore⟩
    · exact lookup_apply_of_writes hwrites
    · have hlookup := ih hbefore fun c' hc' => hclock c' (List.mem_append_left _ hc')
      cases hnow : (c.apply (after calls)).lookup d with
      | none => exact absurd ⟨e, hlookup, hclock c (by simp), hnow⟩ hkept
      | some e' =>
        rcases lookup_of_apply (size_after_le calls) hnow with hw | ⟨-, hsame⟩
        · exact absurd ⟨e', hw⟩ hwrites
        · exact hsame.symm.trans hlookup

/-- Over every sequence of calls: at most 512 entries; `cached` returns the address stored last if that has
neither expired nor been evicted; and an entry is evicted only by a new domain in a cache with 512 unexpired ones,
where just one that expires first is. -/
theorem cached_after (calls : List Call) :
    (after calls).size ≤ 512 ∧
    (∀ d t ip, (∀ c ∈ calls, c.now ≤ t) →
      ((cached (after calls) d t).1 = some ip ↔ ∃ expiresAt, Stored calls d ⟨ip, expiresAt⟩ ∧ t < expiresAt)) ∧
    (∀ c d, Evicts (after calls) c d → ∃ visit domain ip ttl now, c = .store visit domain ip ttl now ∧
      domain ∉ after calls ∧ (unexpired (after calls) now).size = 512) ∧
    (∀ visit domain ip ttl now, domain ∉ after calls → (unexpired (after calls) now).size = 512 →
      ∃ victim entry, (after calls).lookup victim = some entry ∧
        (∀ d e, (after calls).lookup d = some e → entry.expiresAt ≤ e.expiresAt) ∧
        ∀ d, Evicts (after calls) (.store visit domain ip ttl now) d ↔ d = victim) ∧
    (∀ visit domain ip ttl now, domain ∈ after calls →
      ∀ d, ¬Evicts (after calls) (.store visit domain ip ttl now) d) := by
  have hsize := size_after_le calls
  refine ⟨hsize, ?_, fun c d h => h.full hsize, ?_, ?_⟩
  · intro d t ip hclock
    constructor
    · intro h
      unfold cached at h
      split at h
      · rename_i entry hentry
        split at h
        · rename_i hfresh
          cases h
          exact ⟨entry.expiresAt, stored_of_lookup hentry, hfresh⟩
        · cases h
      · cases h
    · rintro ⟨expiresAt, hstored, hfresh⟩
      have hlookup := lookup_of_stored hstored fun c hc => Nat.lt_of_le_of_lt (hclock c hc) hfresh
      rw [cached, hlookup]
      dsimp only
      rw [if_pos hfresh]
  · intro visit domain ip ttl now habsent hcount
    exact evicts_store_iff ip ttl hsize habsent hcount
  · intro visit domain ip ttl now hmem d h
    obtain ⟨_, _, _, _, _, hcall, habsent, -⟩ := h.full hsize
    cases hcall
    exact habsent hmem

/-- An address stored for a minute is there a nanosecond before the minute is over. -/
theorem cached_after_minute :
    ∃ visit : Visit, (cached (after [.store visit "a" (.v4 (Ipv4Addr.new 10 0 0 1)) (.fromSecs 60) 0, .cached "b" 3])
      "a" 59999999999).1 = some (.v4 (Ipv4Addr.new 10 0 0 1)) := by
  obtain ⟨visit⟩ : Nonempty Visit := ⟨fun s => s.entries.toList, fun s => Multiset.coe_toList _⟩
  let put : Call := .store visit "a" (.v4 (Ipv4Addr.new 10 0 0 1)) (.fromSecs 60) 0
  have hput : Stored ([] ++ [put]) "a" ⟨.v4 (Ipv4Addr.new 10 0 0 1), 60000000000⟩ := Table.Standing.of_write [] rfl
  have hboth : Stored ([put] ++ [.cached "b" 3]) "a" ⟨.v4 (Ipv4Addr.new 10 0 0 1), 60000000000⟩ := by
    refine Table.standing_concat.2 (.inr ⟨?_, ?_, hput⟩)
    · rintro ⟨b, hb⟩
      cases hb
    · intro hevicts
      obtain ⟨_, _, _, _, _, hcall, -⟩ := hevicts.full (size_after_le _)
      cases hcall
  refine ⟨visit, ((cached_after [put, .cached "b" 3]).2.1 "a" 59999999999 _ ?_).2 ⟨60000000000, hboth, by decide⟩⟩
  intro c hc
  rcases List.mem_pair.1 hc with rfl | rfl
  · exact (by decide : 0 ≤ 59999999999)
  · exact (by decide : 3 ≤ 59999999999)

end WarpSocks.Doh
