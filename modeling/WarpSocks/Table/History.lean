import Mathlib.Data.List.Induction

/-!
# What a map holds, by the history of its writes

A map that is changed by one event after the other: an event may write a value under a key, and may drop entries.
A value stands if it was written under its key and neither written over nor dropped since (`Standing`); the last
event decides (`standing_concat`).  A map that holds nothing at first and after each event only what the event
wrote or what it held before and the event did not drop holds only values that stand (`Standing.of_held`).  Of the
events of a kind that may depend on what happened before, there is at most one last one (`LastAt.unique`), and
again the last event decides (`lastAt_concat`).
-/

namespace Table

variable {ε α β σ : Type}

/-- `e` writes under `k`. -/
def WritesAt (writes : ε → Option (α × β)) (e : ε) (k : α) : Prop := ∃ b, writes e = some (k, b)

/-- The last write under `k` was that of `b`, and no event since has dropped `k`.  Whether an event drops a key
may depend on the events before it. -/
def Standing (writes : ε → Option (α × β)) (drops : List ε → ε → α → Prop) (es : List ε) (k : α) (b : β) : Prop :=
  ∃ before e after, es = before ++ e :: after ∧ writes e = some (k, b) ∧
    ∀ mid e' rest, after = mid ++ e' :: rest → ¬WritesAt writes e' k ∧ ¬drops (before ++ e :: mid) e' k

variable {writes : ε → Option (α × β)} {drops : List ε → ε → α → Prop}

theorem not_standing_nil {k : α} {b : β} : ¬Standing writes drops [] k b := by
  rintro ⟨before, e, after, h, -⟩
  simp at h

theorem Standing.of_write (es : List ε) {e : ε} {k : α} {b : β} (h : writes e = some (k, b)) :
    Standing writes drops (es ++ [e]) k b := by
  refine ⟨es, e, [], rfl, h, ?_⟩
  intro mid e' rest hnil
  simp at hnil

/-- A value stands after one more event if that has written it, or if it stood and is left alone. -/
theorem standing_concat {es : List ε} {e : ε} {k : α} {b : β} :
    Standing writes drops (es ++ [e]) k b ↔
      writes e = some (k, b) ∨ (¬WritesAt writes e k ∧ ¬drops es e k ∧ Standing writes drops es k b) := by
  constructor
  · rintro ⟨before, w, after, hes, hw, hleft⟩
    rcases List.eq_nil_or_concat after with rfl | ⟨after, last, rfl⟩
    · obtain ⟨rfl, hlast⟩ := List.append_inj' hes rfl
      cases hlast
      exact .inl hw
    · rw [List.concat_eq_append, ← List.cons_append, ← List.append_assoc] at hes
      obtain ⟨rfl, hlast⟩ := List.append_inj' hes rfl
      cases hlast
      obtain ⟨hwrite, hdrop⟩ := hleft after e [] (List.concat_eq_append ..)
      refine .inr ⟨hwrite, hdrop, before, w, after, rfl, hw, ?_⟩
      rintro mid e' rest rfl
      exact hleft mid e' (rest ++ [e]) (by simp)
  · rintro (hw | ⟨hwrite, hdrop, before, w, after, rfl, hw, hleft⟩)
    · exact .of_write es hw
    · refine ⟨before, w, after ++ [e], by simp, hw, ?_⟩
      intro mid e' rest hafter
      rcases List.eq_nil_or_concat rest with rfl | ⟨rest, last, rfl⟩
      · obtain ⟨rfl, hlast⟩ := List.append_inj' hafter rfl
        cases hlast
        exact ⟨hwrite, hdrop⟩
      · rw [List.concat_eq_append, ← List.cons_append, ← List.append_assoc] at hafter
        obtain ⟨rfl, -⟩ := List.append_inj' hafter rfl
        exact hleft mid e' rest rfl

/-- What a map holds stands, if each event leaves only what it wrote and what was held and is not dropped. -/
theorem Standing.of_held (apply : σ → ε → σ) (held : σ → α → Option β) (start : σ) (hstart : ∀ k, held start k = none)
    (hstep : ∀ es e k b, held (apply (es.foldl apply start) e) k = some b →
      writes e = some (k, b) ∨ (¬WritesAt writes e k ∧ ¬drops es e k ∧ held (es.foldl apply start) k = some b))
    (es : List ε) : ∀ {k b}, held (es.foldl apply start) k = some b → Standing writes drops es k b := by
  induction es using List.reverseRecOn with
  | nil =>
    intro k b h
    rw [List.foldl_nil, hstart] at h
    cases h
  | append_singleton es e ih =>
    intro k b h
    rw [List.foldl_append] at h
    rw [standing_concat]
    exact (hstep es e k b h).imp_right fun ⟨hwrite, hdrop, hheld⟩ => ⟨hwrite, hdrop, ih hheld⟩

/-! ### The last event of a kind -/

variable {P : List ε → ε → Prop} {es : List ε} {i j : Nat} {e f : ε}

/-- `e` is at `i` and of the kind `P`, and no event behind it is.  The kind of an event may depend on the events
before it. -/
structure LastAt (P : List ε → ε → Prop) (es : List ε) (i : Nat) (e : ε) : Prop where
  get : es[i]? = some e
  kind : P (es.take i) e
  last : ∀ j f, i < j → es[j]? = some f → ¬P (es.take j) f

theorem LastAt.unique (h : LastAt P es i e) (h' : LastAt P es j f) : i = j ∧ e = f := by
  have hij : i = j := by
    rcases Nat.lt_trichotomy i j with hlt | heq | hlt
    · exact absurd h'.kind (h.last j f hlt h'.get)
    · exact heq
    · exact absurd h.kind (h'.last i e hlt h.get)
  subst hij
  exact ⟨rfl, Option.some.inj (h.get.symm.trans h'.get)⟩

theorem LastAt.of_concat (h : P es f) : LastAt P (es ++ [f]) es.length f := by
  refine ⟨by simp, by rwa [List.take_left], fun j g hj hget => ?_⟩
  rw [List.getElem?_eq_none (by rw [List.length_append, List.length_singleton]; omega)] at hget
  cases hget

/-- The events of the kind, with one more event. -/
private theorem kind_concat_iff : ((es ++ [f])[i]? = some e ∧ P ((es ++ [f]).take i) e) ↔
    (es[i]? = some e ∧ P (es.take i) e) ∨ (i = es.length ∧ e = f ∧ P es f) := by
  rcases Nat.lt_trichotomy i es.length with hi | rfl | hi
  · rw [List.getElem?_append_left hi, List.take_append_of_le_length (Nat.le_of_lt hi)]
    constructor
    · exact .inl
    · rintro (h | ⟨rfl, -⟩)
      · exact h
      · exact absurd hi (Nat.lt_irrefl _)
  · rw [List.getElem?_concat_length, List.take_left, List.getElem?_eq_none (Nat.le_refl _), Option.some.injEq]
    constructor
    · rintro ⟨rfl, hP⟩
      exact .inr ⟨rfl, rfl, hP⟩
    · rintro (⟨h, -⟩ | ⟨-, rfl, hP⟩)
      · cases h
      · exact ⟨rfl, hP⟩
  · have hnone : (es ++ [f])[i]? = none :=
      List.getElem?_eq_none (by rw [List.length_append, List.length_singleton]; omega)
    rw [hnone, List.getElem?_eq_none (Nat.le_of_lt hi)]
    constructor
    · rintro ⟨h, -⟩
      cases h
    · rintro (⟨h, -⟩ | ⟨rfl, -⟩)
      · cases h
      · exact absurd hi (Nat.lt_irrefl _)

/-- One more event is the last one of the kind, or leaves the last one. -/
theorem lastAt_concat : LastAt P (es ++ [f]) i e ↔ (P es f ∧ i = es.length ∧ e = f) ∨
    (¬P es f ∧ LastAt P es i e) := by
  constructor
  · intro h
    by_cases hf : P es f
    · obtain ⟨rfl, rfl⟩ := h.unique (.of_concat hf)
      exact .inl ⟨hf, rfl, rfl⟩
    · rcases kind_concat_iff.1 ⟨h.get, h.kind⟩ with ⟨hget, hkind⟩ | ⟨-, -, hP⟩
      · refine .inr ⟨hf, hget, hkind, fun j g hij hg hP => ?_⟩
        obtain ⟨hg', hP'⟩ := kind_concat_iff.2 (.inl ⟨hg, hP⟩)
        exact h.last j g hij hg' hP'
      · exact absurd hP hf
  · rintro (⟨hf, rfl, rfl⟩ | ⟨hf, h⟩)
    · exact .of_concat hf
    · obtain ⟨hget, hkind⟩ := kind_concat_iff.2 (.inl ⟨h.get, h.kind⟩)
      refine ⟨hget, hkind, fun j g hij hg hP => ?_⟩
      rcases kind_concat_iff.1 ⟨hg, hP⟩ with ⟨hg', hP'⟩ | ⟨-, -, hP'⟩
      · exact h.last j g hij hg' hP'
      · exact hf hP'

end Table
