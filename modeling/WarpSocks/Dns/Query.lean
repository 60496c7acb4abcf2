import WarpSocks.Dns.Response

/-!
# What a DNS query says

The loop over the labels writes each of them behind the others or rejects the first one that is empty or too long
(`pushLabels_cases`), so that a query is a header, the labels of the name without its trailing dots, and the type
and class (`encodeDnsQuery_cases`).  From this the labels can be read back, and they determine the name.
-/

namespace WarpSocks.Dns

open Machine (Checked)

/-- A label that has no wire form. -/
def BadLabel (label : String) : Prop := Text.asBytes label = [] ∨ 63 < (Text.asBytes label).length

/-- A name without a trailing dot that has no wire form. -/
def Malformed (name : String) : Prop :=
  Text.asBytes name = [] ∨ 253 < (Text.asBytes name).length ∨ ∃ label ∈ Text.split name '.', BadLabel label

variable (debug : String → String)

private theorem pushLabel_ok (msg : List UInt8) {label : String} (h : ¬BadLabel label) :
    ∃ l : Wire.Label, l.bytes = Text.asBytes label ∧ pushLabel debug msg label = .ok (msg ++ l.wire) := by
  unfold BadLabel at h
  have hpos : 0 < (Text.asBytes label).length := List.length_pos_iff.2 fun hnil => h (.inl hnil)
  refine ⟨⟨Text.asBytes label, hpos, by omega⟩, rfl, ?_⟩
  unfold pushLabel
  exact if_neg h

private theorem pushLabel_error (msg : List UInt8) {label : String} (h : BadLabel label) :
    ∃ e, pushLabel debug msg label = .error e :=
  ⟨_, if_pos h⟩

/-- The loop over the labels writes them all, or ends at the first that has no wire form. -/
theorem pushLabels_cases (labels : List String) (msg : List UInt8) :
    ((∀ label ∈ labels, ¬BadLabel label) ∧ ∃ ls : List Wire.Label, ls.map Wire.Label.bytes = labels.map Text.asBytes ∧
      labels.foldlM (pushLabel debug) msg = .ok (msg ++ Wire.wireLabels ls)) ∨
    (∃ label ∈ labels, BadLabel label) ∧ ∃ e, labels.foldlM (pushLabel debug) msg = .error e := by
  induction labels generalizing msg with
  | nil => exact .inl ⟨by simp, [], rfl, congrArg Except.ok (List.append_nil msg).symm⟩
  | cons label labels ih =>
    rw [List.foldlM_cons]
    by_cases hbad : BadLabel label
    · obtain ⟨e, he⟩ := pushLabel_error debug msg hbad
      exact .inr ⟨⟨label, List.mem_cons_self, hbad⟩, e, by rw [he]; rfl⟩
    · obtain ⟨l, hl, hpush⟩ := pushLabel_ok debug msg hbad
      rw [hpush]
      obtain ⟨hgood, ls, hls, hfold⟩ | ⟨⟨label', hmem, hbad'⟩, he⟩ := ih (msg ++ l.wire)
      · refine .inl ⟨by simpa using ⟨hbad, hgood⟩, l :: ls, by simp [hl, hls], ?_⟩
        refine hfold.trans ?_
        simp [Wire.Label.wire]
      · exact .inr ⟨⟨label', List.mem_cons_of_mem _ hmem, hbad'⟩, he⟩

/-- The header of a query. -/
def queryHeader (id : UInt16) : List UInt8 := toBeBytes id ++ toBeBytes 0x0100 ++ toBeBytes 1 ++ [0, 0, 0, 0, 0, 0]

/-- The type and the class of a query. -/
def queryTail (recordType : RecordType) : List UInt8 := toBeBytes recordType.qtype ++ toBeBytes 1

private theorem length_queryHeader (id : UInt16) : (queryHeader id).length = 12 := rfl

private theorem length_queryTail (recordType : RecordType) : (queryTail recordType).length = 4 := rfl

/-- A query spells the name without its trailing dots, label by label; a name that cannot be spelt so is
rejected. -/
theorem encodeDnsQuery_cases (id : UInt16) (name : String) (recordType : RecordType) :
    (¬Malformed (Text.trimEndMatches name '.') ∧ ∃ ls : List Wire.Label,
      ls.map Wire.Label.bytes = (Text.split (Text.trimEndMatches name '.') '.').map Text.asBytes ∧
      encodeDnsQuery debug id name recordType =
        .ok (queryHeader id ++ (Wire.wireLabels ls ++ 0 :: queryTail recordType))) ∨
    Malformed (Text.trimEndMatches name '.') ∧ ∃ e, encodeDnsQuery debug id name recordType = .error e := by
  unfold encodeDnsQuery
  dsimp only
  generalize Text.trimEndMatches name '.' = text
  by_cases hlen : Text.asBytes text = [] ∨ 253 < (Text.asBytes text).length
  · rw [if_pos hlen]
    exact .inr ⟨hlen.elim .inl fun h => .inr (.inl h), _, rfl⟩
  · rw [if_neg hlen]
    obtain ⟨hgood, ls, hls, hfold⟩ | ⟨hbad, e, he⟩ := pushLabels_cases debug (Text.split text '.') (queryHeader id)
    · refine .inl ⟨?_, ls, hls, ?_⟩
      · rintro (h | h | ⟨label, hmem, hbad⟩)
        · exact hlen (.inl h)
        · exact hlen (.inr h)
        · exact hgood label hmem hbad
      · unfold queryHeader at hfold
        rw [hfold]
        refine congrArg Except.ok ?_
        simp [queryHeader, queryTail]
    · unfold queryHeader at he
      exact .inr ⟨.inr (.inr hbad), e, by rw [he]; rfl⟩

private theorem encodeDnsQuery_error_iff (id : UInt16) (name : String) (recordType : RecordType) :
    (∃ e, encodeDnsQuery debug id name recordType = .error e) ↔ Malformed (Text.trimEndMatches name '.') := by
  obtain ⟨hwell, ls, -, hok⟩ | ⟨hbad, he⟩ := encodeDnsQuery_cases debug id name recordType
  · refine ⟨?_, fun h => absurd h hwell⟩
    rintro ⟨e, he⟩
    rw [hok] at he
    cases he
  · exact ⟨fun _ => hbad, fun _ => he⟩

/-- The parts of a query. -/
private theorem encodeDnsQuery_ok {id : UInt16} {name : String} {recordType : RecordType} {m : List UInt8}
    (h : encodeDnsQuery debug id name recordType = .ok m) :
    ∃ ls : List Wire.Label, ls ≠ [] ∧
      [46].intercalate (ls.map Wire.Label.bytes) = Text.asBytes (Text.trimEndMatches name '.') ∧
      (Text.asBytes (Text.trimEndMatches name '.')).length ≤ 253 ∧
      m = queryHeader id ++ (Wire.wireLabels ls ++ 0 :: queryTail recordType) := by
  obtain ⟨hwell, ls, hls, hok⟩ | ⟨-, e, he⟩ := encodeDnsQuery_cases debug id name recordType
  · rw [hok] at h
    cases h
    refine ⟨ls, ?_, ?_, ?_, rfl⟩
    · rintro rfl
      have hnil : Text.split (Text.trimEndMatches name '.') '.' = [] := List.map_eq_nil_iff.1 hls.symm
      exact List.splitOn_ne_nil _ _ (List.map_eq_nil_iff.1 hnil)
    · rw [hls]
      exact Text.intercalate_asBytes_split _ '.'
    · by_contra hlong
      exact hwell (.inr (.inl (by omega)))
  · rw [he] at h
    cases h

/-- The labels are read back from a query. -/
private theorem readLabels_query {id : UInt16} {name : String} {recordType : RecordType} {m : List UInt8}
    (h : encodeDnsQuery debug id name recordType = .ok m) :
    ∃ labels : List Wire.Label, Wire.readLabels (m.drop 12) = some (labels, queryTail recordType) ∧
      [46].intercalate (labels.map Wire.Label.bytes) = Text.asBytes (Text.trimEndMatches name '.') := by
  obtain ⟨ls, -, hjoin, -, rfl⟩ := encodeDnsQuery_ok debug h
  refine ⟨ls, ?_, hjoin⟩
  rw [← length_queryHeader id, List.drop_left]
  exact Wire.readLabels_wire ls _

/-- The name ends four bytes in front of the end. -/
private theorem skipName_query {id : UInt16} {name : String} {recordType : RecordType} {m : List UInt8}
    (h : encodeDnsQuery debug id name recordType = .ok m) :
    m.length ≤ 12 + 255 + 4 ∧ skipName m 12 = pure (m.length - 4) ∧ m.drop (m.length - 4) = queryTail recordType := by
  obtain ⟨ls, hne, hjoin, hlen, hm⟩ := encodeDnsQuery_ok debug h
  have hwire := Wire.length_wireLabels 46 hne
  rw [hjoin] at hwire
  have hsplit : m = queryHeader id ++ (Wire.Name.wire ⟨ls, .root⟩ ++ queryTail recordType) := by
    rw [hm]
    simp [Wire.Name.wire, Wire.NameEnd.wire]
  have hname : (Wire.Name.wire ⟨ls, .root⟩).length = (Wire.wireLabels ls).length + 1 := by
    simp [Wire.Name.wire, Wire.NameEnd.wire]
  have hmlen : m.length = 12 + ((Wire.Name.wire ⟨ls, .root⟩).length + 4) := by
    rw [hsplit, List.length_append, List.length_append, length_queryHeader, length_queryTail]
  have hpos : m.length - 4 = 12 + (Wire.Name.wire ⟨ls, .root⟩).length := by omega
  refine ⟨by omega, ?_, ?_⟩
  · rw [hpos, hsplit]
    exact skipName_wire ⟨ls, .root⟩ (queryHeader id) (queryTail recordType)
  · rw [hpos, hsplit, ← List.append_assoc, ← length_queryHeader id, ← List.length_append, List.drop_left]

/-- A query holds its name without loss: the name is read back from it label by label, within the bounds of the wire
form, and two names that differ otherwise than in trailing dots have different queries. -/
theorem encodeDnsQuery_lossless :
    (∀ (id : UInt16) (name : String) (recordType : RecordType) (m : List UInt8),
      encodeDnsQuery debug id name recordType = .ok m →
        m.length ≤ 12 + 255 + 4 ∧ skipName m 12 = pure (m.length - 4) ∧
        (∃ labels : List Wire.Label, Wire.readLabels (m.drop 12) = some (labels, m.drop (m.length - 4)) ∧
          [46].intercalate (labels.map Wire.Label.bytes) = Text.asBytes (Text.trimEndMatches name '.')) ∧
        m.drop (m.length - 4) = toBeBytes recordType.qtype ++ toBeBytes 1) ∧
    ∀ (id₁ id₂ : UInt16) (name₁ name₂ : String) (type₁ type₂ : RecordType) (m₁ m₂ : List UInt8),
      Text.trimEndMatches name₁ '.' ≠ Text.trimEndMatches name₂ '.' →
        encodeDnsQuery debug id₁ name₁ type₁ = .ok m₁ → encodeDnsQuery debug id₂ name₂ type₂ = .ok m₂ → m₁ ≠ m₂ := by
  constructor
  · intro id name recordType m h
    obtain ⟨hlen, hskip, htail⟩ := skipName_query debug h
    obtain ⟨labels, hread, hjoin⟩ := readLabels_query debug h
    rw [← htail] at hread
    exact ⟨hlen, hskip, ⟨labels, hread, hjoin⟩, htail⟩
  · rintro id₁ id₂ name₁ name₂ type₁ type₂ m₁ m₂ hne h₁ h₂ rfl
    -- both names are read back from the one query
    obtain ⟨labels₁, hread₁, hjoin₁⟩ := readLabels_query debug h₁
    obtain ⟨labels₂, hread₂, hjoin₂⟩ := readLabels_query debug h₂
    rw [hread₁, Option.some.injEq, Prod.mk.injEq] at hread₂
    apply hne
    apply Text.asBytes_injective
    rw [← hjoin₁, ← hjoin₂, hread₂.1]

theorem encodeDnsQuery_lossless_two_labels :
    (∃ m, encodeDnsQuery id 7 "a.bc." .aaaa = .ok m ∧ skipName m 12 = pure (m.length - 4)) ∧
      encodeDnsQuery id 7 "a.bc" .aaaa ≠ encodeDnsQuery id 7 "ab.c" .aaaa := by
  have hok : encodeDnsQuery id 7 "a.bc." .aaaa =
      .ok [0, 7, 1, 0, 0, 1, 0, 0, 0, 0, 0, 0, 1, 97, 2, 98, 99, 0, 0, 28, 0, 1] := by decide
  have hother : encodeDnsQuery id 7 "ab.c" .aaaa =
      .ok [0, 7, 1, 0, 0, 1, 0, 0, 0, 0, 0, 0, 2, 97, 98, 1, 99, 0, 0, 28, 0, 1] := by decide
  refine ⟨⟨_, hok, ((encodeDnsQuery_lossless id).1 7 "a.bc." .aaaa _ hok).2.1⟩, fun h => ?_⟩
  exact (encodeDnsQuery_lossless id).2 7 7 "a.bc" "ab.c" .aaaa .aaaa _ _ (by decide) (h.trans hother) hother rfl

/-- The name without the dot of the root. -/
def stripRoot (name : String) : String :=
  .ofList (if name.toList.getLast? = some '.' then name.toList.dropLast else name.toList)

/-- Without two dots at the end there is no more to trim than the dot of the root. -/
private theorem trimEndMatches_eq_stripRoot {name : String} (h : ¬['.', '.'] <:+ name.toList) :
    Text.trimEndMatches name '.' = stripRoot name := by
  unfold Text.trimEndMatches stripRoot
  refine congrArg String.ofList ?_
  generalize name.toList = cs at h
  rcases List.eq_nil_or_concat' cs with rfl | ⟨front, c, rfl⟩
  · rfl
  · by_cases hc : c = '.'
    · subst hc
      rw [List.rdropWhile_concat_pos _ _ _ (by simp), if_pos (by simp), List.dropLast_concat,
        List.rdropWhile_eq_self_iff]
      intro hne hlast
      apply h
      rw [← List.dropLast_append_getLast hne, beq_iff_eq.1 hlast]
      exact ⟨front.dropLast, by simp⟩
    · rw [List.rdropWhile_concat_neg _ _ _ (by simpa using hc), if_neg (by simpa using hc)]

/-- With two dots at the end the last label is empty. -/
private theorem malformed_stripRoot {name : String} (h : ['.', '.'] <:+ name.toList) :
    Malformed (stripRoot name) := by
  obtain ⟨front, hfront⟩ := h
  have hstrip : (stripRoot name).toList = front ++ ['.'] := by
    unfold stripRoot
    rw [← hfront, if_pos (by simp), String.toList_ofList]
    simp
  refine .inr (.inr ⟨"", ?_, .inl rfl⟩)
  unfold Text.split
  rw [hstrip, List.splitOn_append_cons_self]
  simp

/-- A name is rejected exactly if it is malformed without the dot of the root, except for a name with more than
one dot at its end that is well formed without them all. -/
theorem encodeDnsQuery_rejects_iff (id : UInt16) (name : String) (recordType : RecordType) :
    ((∃ e, encodeDnsQuery debug id name recordType = .error e) ↔ Malformed (stripRoot name)) ↔
      (['.', '.'] <:+ name.toList → Malformed (Text.trimEndMatches name '.')) := by
  rw [encodeDnsQuery_error_iff]
  by_cases hdots : ['.', '.'] <:+ name.toList
  · have hbad := malformed_stripRoot hdots
    exact ⟨fun h _ => h.2 hbad, fun h => ⟨fun _ => hbad, fun _ => h hdots⟩⟩
  · rw [trimEndMatches_eq_stripRoot hdots]
    exact ⟨fun _ h => absurd h hdots, fun _ => Iff.rfl⟩

theorem encodeDnsQuery_rejects_iff_root :
    (∃ e, encodeDnsQuery id 0 "a." .a = .error e) ↔ Malformed (stripRoot "a.") :=
  (encodeDnsQuery_rejects_iff id 0 "a." .a).2 fun h => absurd h (by decide)

/-- Every dot at the end is trimmed, so that the empty label between two of them is not seen. -/
theorem encodeDnsQuery_takes_empty_label :
    encodeDnsQuery id 0 "a.." .a = .ok [0, 0, 1, 0, 0, 1, 0, 0, 0, 0, 0, 0, 1, 97, 0, 0, 1, 0, 1] ∧
      stripRoot "a.." = "a." ∧ Text.split "a." '.' = ["a", ""] ∧ Malformed (stripRoot "a..") :=
  ⟨by decide, by decide, by decide, .inr (.inr ⟨"", by decide, .inl rfl⟩)⟩

end WarpSocks.Dns
