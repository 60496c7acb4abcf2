import Mathlib.Data.Finmap

/-!
# The entries of a finite map

Iterating over the entries of Mathlib's finite maps: their number, an order in which they are visited (`Visit`),
whether one of them satisfies a predicate (`anyEntry_iff`), and keeping those that do (`lookup_retain`).  A retain
that leaves the size as it was leaves the map as it was (`retain_eq_self_of_size`).
-/

namespace Finmap

variable {α : Type*} {β : α → Type*}

/-- The number of entries. -/
def size (s : Finmap β) : Nat := s.entries.card

private theorem nodupKeys_filter {s : Multiset (Sigma β)} (h : s.NodupKeys) (p : Sigma β → Bool) :
    (s.filter fun e => p e = true).NodupKeys := by
  induction s using Quotient.inductionOn with
  | _ l =>
    have hl : l.NodupKeys := Multiset.coe_nodupKeys.1 h
    exact Multiset.coe_nodupKeys.2 (hl.sublist List.filter_sublist)

/-- The entries that satisfy `p`. -/
def retain (p : (a : α) → β a → Bool) (s : Finmap β) : Finmap β :=
  ⟨s.entries.filter fun e => p e.1 e.2 = true, nodupKeys_filter s.nodupKeys fun e => p e.1 e.2⟩

theorem size_retain_le (p : (a : α) → β a → Bool) (s : Finmap β) : (s.retain p).size ≤ s.size :=
  Multiset.card_le_card (Multiset.filter_le _ _)

theorem retain_eq_self_of_size {p : (a : α) → β a → Bool} {s : Finmap β} (h : (s.retain p).size = s.size) :
    s.retain p = s :=
  Finmap.ext (Multiset.eq_of_le_of_card_le (Multiset.filter_le _ _) (Nat.le_of_eq h.symm))

/-- An order in which the entries of a map are visited, which may be different for each map. -/
structure Visit (β : α → Type*) where
  list : Finmap β → List (Sigma β)
  coe_list : ∀ s, (list s : Multiset (Sigma β)) = s.entries

theorem card_keys (s : Finmap β) : s.keys.card = s.size := Multiset.card_map _ _

variable [DecidableEq α]

theorem mem_entries_iff {s : Finmap β} {a : α} {b : β a} : ⟨a, b⟩ ∈ s.entries ↔ s.lookup a = some b := by
  induction s using Finmap.induction_on with
  | H l => exact AList.mem_lookup_iff.symm

/-- A retained entry is found, any other one is not. -/
theorem lookup_retain (p : (a : α) → β a → Bool) (s : Finmap β) (a : α) :
    (s.retain p).lookup a = (s.lookup a).filter (p a) := by
  ext b
  rw [← mem_entries_iff, Option.filter_eq_some_iff, ← mem_entries_iff]
  exact Multiset.mem_filter

/-- What is found after an erasure was there before. -/
theorem lookup_of_erase {s : Finmap β} {a a' : α} {b : β a'} (h : (s.erase a).lookup a' = some b) :
    s.lookup a' = some b := by
  by_cases ha : a' = a
  · subst ha
    rw [lookup_erase] at h
    nomatch h
  · rwa [lookup_erase_ne ha] at h

theorem size_insert_le (a : α) (b : β a) (s : Finmap β) : (s.insert a b).size ≤ s.size + 1 := by
  induction s using Finmap.induction_on with
  | H l =>
    have hsub : (List.kerase a l.entries).length ≤ l.entries.length := (List.kerase_sublist a l.entries).length_le
    exact Nat.succ_le_succ hsub

theorem size_erase_le (a : α) (s : Finmap β) : (s.erase a).size ≤ s.size := by
  induction s using Finmap.induction_on with
  | H l => exact (List.kerase_sublist a l.entries).length_le

theorem mem_visit {visit : Visit β} {s : Finmap β} {a : α} {b : β a} :
    ⟨a, b⟩ ∈ visit.list s ↔ s.lookup a = some b := by
  rw [← mem_entries_iff, ← visit.coe_list s, Multiset.mem_coe]

/-- Writing under a key that is there replaces its entry. -/
theorem size_insert_of_mem {a : α} (b : β a) {s : Finmap β} (h : a ∈ s) : (s.insert a b).size = s.size := by
  rw [← card_keys, ← card_keys]
  congr 1
  ext a'
  rw [mem_keys, mem_keys, mem_insert]
  constructor
  · rintro (rfl | h')
    · exact h
    · exact h'
  · exact .inr

theorem size_erase_of_mem {a : α} {s : Finmap β} (h : a ∈ s) : (s.erase a).size + 1 = s.size := by
  rw [← card_keys, ← card_keys, keys_erase]
  exact Finset.card_erase_add_one (mem_keys.2 h)

/-- One of the entries satisfies `p`. -/
def anyEntry (p : (a : α) → β a → Bool) (s : Finmap β) : Bool :=
  @decide (∃ e ∈ s.entries, p e.1 e.2 = true) Multiset.decidableExistsMultiset

theorem anyEntry_iff {p : (a : α) → β a → Bool} {s : Finmap β} :
    s.anyEntry p ↔ ∃ a b, s.lookup a = some b ∧ p a b := by
  refine (@decide_eq_true_iff _ Multiset.decidableExistsMultiset).trans ?_
  constructor
  · rintro ⟨⟨a, b⟩, hmem, hp⟩
    exact ⟨a, b, mem_entries_iff.1 hmem, hp⟩
  · rintro ⟨a, b, hl, hp⟩
    exact ⟨⟨a, b⟩, mem_entries_iff.2 hl, hp⟩

end Finmap
