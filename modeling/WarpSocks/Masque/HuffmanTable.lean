import Mathlib.Data.List.Pairwise
import WarpSocks.Masque.Huffman
import WarpSocks.Wire.PrefixCode

/-!
# The code table is a complete prefix code

The intervals of 30-bit strings started by the code words, taken by increasing length, tile all 30-bit strings
(`tile_canonical`, checked on the table by evaluation).  So no code word is a prefix of another one
(`code_prefixFree`), and every string of 30 bits starts with a code word (`not_stuck_of_le`).
-/

namespace WarpSocks.Masque.Huffman

open Wire (bits)
open Wire.PrefixCode

/-- The table by increasing code length, each entry with its symbol. -/
def canonical : List ((Nat × Nat) × Nat) :=
  (List.range 31).flatMap fun len => table.zipIdx.filter fun e => e.1.2 = len

private theorem length_table : table.length = 257 := by decide +kernel

private theorem table_bound : ∀ e ∈ table, 5 ≤ e.2 ∧ e.2 ≤ 30 ∧ e.1 < 2 ^ e.2 := by decide +kernel

private theorem tile_canonical : tile 30 0 (canonical.map Prod.fst) = some (2 ^ 30) := by decide +kernel

/-- The table entry of a symbol. -/
def entry (a : Fin 257) : Nat × Nat := table.get (a.cast length_table.symm)

/-- The code word of a symbol. -/
def code (a : Fin 257) : List Bool := bits (entry a).2 (entry a).1

theorem entry_mem (a : Fin 257) : entry a ∈ table := List.get_mem _ _

@[simp] theorem length_code (a : Fin 257) : (code a).length = (entry a).2 := Wire.length_bits _ _

private theorem entry_len_pos (a : Fin 257) : 5 ≤ (entry a).2 := (table_bound _ (entry_mem a)).1

theorem entry_len_le (a : Fin 257) : (entry a).2 ≤ 30 := (table_bound _ (entry_mem a)).2.1

theorem entry_lt (a : Fin 257) : (entry a).1 < 2 ^ (entry a).2 := (table_bound _ (entry_mem a)).2.2

theorem code_ne_nil (a : Fin 257) : code a ≠ [] := by
  have := entry_len_pos a
  exact List.ne_nil_of_length_pos (by rw [length_code]; omega)

theorem exists_entry {e : Nat × Nat} {i : Nat} (h : table[i]? = some e) : ∃ a : Fin 257, a.val = i ∧ entry a = e := by
  obtain ⟨hi, rfl⟩ := List.getElem?_eq_some_iff.1 h
  exact ⟨⟨i, by rw [← length_table]; exact hi⟩, rfl, rfl⟩

private theorem mem_canonical (a : Fin 257) : (entry a, a.val) ∈ canonical := by
  refine List.mem_flatMap.2 ⟨(entry a).2, List.mem_range.2 (by have := entry_len_le a; omega), ?_⟩
  refine List.mem_filter.2 ⟨List.mem_zipIdx_iff_getElem?.2 ?_, by simp⟩
  exact List.getElem?_eq_getElem (by rw [length_table]; exact a.isLt)

private theorem mem_of_mem_canonical {e : Nat × Nat} {i : Nat} (h : (e, i) ∈ canonical) : table[i]? = some e := by
  obtain ⟨len, -, h⟩ := List.mem_flatMap.1 h
  exact List.mem_zipIdx_iff_getElem?.1 (List.mem_filter.1 h).1

/-- No code word of the table is a prefix of another one. -/
theorem code_prefixFree : PrefixFree code := by
  intro a b hab
  by_contra hne
  have hpair : canonical.Pairwise fun e f => Apart 30 e.1 f.1 := List.pairwise_map.1 (tile_apart tile_canonical)
  have : Std.Symm fun e f : (Nat × Nat) × Nat => Apart 30 e.1 f.1 := ⟨fun _ _ h => h.symm⟩
  have hd : Apart 30 (entry a) (entry b) :=
    hpair.forall (mem_canonical a) (mem_canonical b) fun h => hne (Fin.ext (Prod.mk.inj h).2)
  exact not_apart_of_prefix (entry_len_le a) (entry_len_le b) (entry_lt a) (entry_lt b) hab hd

/-- Every string of at least 30 bits starts with a code word. -/
theorem not_stuck_of_le {n v : Nat} (hv : v < 2 ^ n) (hn : 30 ≤ n) : ¬ Stuck code (bits n v) := by
  intro hstuck
  have hlt : v / 2 ^ (n - 30) < 2 ^ 30 := by
    rw [Nat.div_lt_iff_lt_mul (Nat.two_pow_pos _), ← Nat.pow_add, show 30 + (n - 30) = n by omega]
    exact hv
  obtain ⟨e, he, hev⟩ := tile_covers tile_canonical (v / 2 ^ (n - 30)) (Nat.zero_le _) hlt
  obtain ⟨⟨f, i⟩, hf, rfl⟩ := List.mem_map.1 he
  obtain ⟨a, -, rfl⟩ := exists_entry (mem_of_mem_canonical hf)
  have hlen := entry_len_le a
  have h30 : bits 30 (v / 2 ^ (n - 30)) <+: bits n v := (Wire.bits_prefix_iff hn hlt hv).2 rfl
  exact hstuck a (((Wire.bits_prefix_iff hlen (entry_lt a) hlt).2 hev).trans h30)

end WarpSocks.Masque.Huffman
