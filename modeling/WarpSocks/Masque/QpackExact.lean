import WarpSocks.Masque.QpackGrammar

/-!
# `decode_headers` accepts exactly its grammar

On a machine with a `usize` of 64 bits or more, `decode_headers` accepts a payload if and only if it is a field
section in the sense of `FieldSection` that has a status, and reports the last status and the last `cf-warp-colo`
of its lines (`decodeHeaders_exact`).
-/

namespace WarpSocks.Masque.Qpack

open Wire (PrefixInt)

/-- A field section: the Required Insert Count, the Base with its sign bit, and the field lines. -/
structure FieldSection where
  insertCount : PrefixInt 8
  base : PrefixInt 7
  lines : List FieldLine

namespace FieldSection

/-- The bytes ahead of the lines. -/
def head (sec : FieldSection) : List UInt8 := sec.insertCount.wire ++ sec.base.wire

/-- Its bytes. -/
def wire (sec : FieldSection) : List UInt8 := sec.head ++ wireOf sec.lines

/-- The status of the last line that has one. -/
def status (sec : FieldSection) : Option Nat := (sec.lines.filterMap FieldLine.status).getLast?

/-- The value of the last `cf-warp-colo`. -/
def colo (sec : FieldSection) : Option String := (sec.lines.filterMap FieldLine.colo).getLast?.join

end FieldSection

private theorem applyAll_eq (lines : List FieldLine) (found : Found) :
    applyAll lines found =
      ⟨(lines.filterMap FieldLine.status).getLast?.or found.status,
        (lines.filterMap FieldLine.colo).getLast?.getD found.colo⟩ := by
  induction lines generalizing found with
  | nil => rfl
  | cons line lines ih =>
    show applyAll lines (line.apply found) = _
    rw [ih, FieldLine.apply, List.filterMap_cons, List.filterMap_cons]
    congr 1
    · cases line.status with
      | none => rfl
      | some c => cases h : lines.filterMap FieldLine.status <;> simp [List.getLast?_cons]
    · cases line.colo with
      | none => rfl
      | some c => cases h : lines.filterMap FieldLine.colo <;> simp [List.getLast?_cons]

/-- What `decode_headers` makes of what its loop found. -/
def finish : Except String Found → Except String ResponseHeaders
  | .error e => .error e
  | .ok found =>
    match found.status with
    | none => .error "响应头中未找到 :status"
    | some status => .ok ⟨status, found.colo⟩

theorem skipInteger_head (sec : FieldSection) {payload y : List UInt8} (h : payload = sec.head ++ y) :
    ∃ pos, skipInteger payload 0 8 = .ok pos ∧ skipInteger payload pos 7 = .ok sec.head.length := by
  have h₁ : payload.drop 0 = sec.insertCount.wire ++ (sec.base.wire ++ y) := by
    rw [h, FieldSection.head, List.append_assoc]; rfl
  have hlen : 0 + sec.insertCount.wire.length + sec.base.wire.length = sec.head.length := by
    rw [FieldSection.head, List.length_append, Nat.zero_add]
  refine ⟨0 + sec.insertCount.wire.length, ?_, ?_⟩
  · simp only [skipInteger, decodeInteger_wire (by decide) sec.insertCount h₁]
  · simp only [skipInteger, decodeInteger_wire (by decide) sec.base (drop_append h₁), hlen]

/-- Behind the prefix the loop decides. -/
theorem decodeHeaders_head (w : Nat) {payload y : List UInt8} (sec : FieldSection) (h : payload = sec.head ++ y) :
    decodeHeaders w payload = finish (decodeFields w payload sec.head.length ⟨none, none⟩) := by
  obtain ⟨pos, h₁, h₂⟩ := skipInteger_head sec h
  simp only [decodeHeaders, h₁, h₂]
  cases decodeFields w payload sec.head.length ⟨none, none⟩ <;> rfl

/-- A field section is read as that section. -/
theorem decodeHeaders_wire {w : Nat} (sec : FieldSection) (hw : sec.wire.length < 2 ^ w) :
    decodeHeaders w sec.wire = finish (.ok ⟨sec.status, sec.colo⟩) := by
  have hdrop : sec.wire.drop sec.head.length = wireOf sec.lines ++ [] := by
    rw [FieldSection.wire, List.drop_left, List.append_nil]
  have hend : sec.wire.length ≤ sec.head.length + (wireOf sec.lines).length :=
    Nat.le_of_eq (by rw [FieldSection.wire, List.length_append])
  have hcolo : (sec.lines.filterMap FieldLine.colo).getLast?.getD none = sec.colo := by
    rw [FieldSection.colo]
    cases (sec.lines.filterMap FieldLine.colo).getLast? <;> rfl
  rw [decodeHeaders_head w sec (show sec.wire = sec.head ++ wireOf sec.lines from rfl),
    decodeFields_wire hw sec.lines _ hdrop, decodeFields_end w _ hend, applyAll_eq, Option.or_none, hcolo]
  rfl

private theorem exists_section {w : Nat} (hw : 64 ≤ w) {payload : List UInt8} (hlen : payload.length < 2 ^ w)
    {r : ResponseHeaders} (h : decodeHeaders w payload = .ok r) : ∃ sec : FieldSection, sec.wire = payload := by
  unfold decodeHeaders skipInteger at h
  cases h₁ : decodeInteger payload 0 8 with
  | error e => simp [h₁] at h
  | ok p₁ =>
    obtain ⟨v₁, q₁⟩ := p₁
    simp only [h₁] at h
    cases h₂ : decodeInteger payload q₁ 7 with
    | error e => simp [h₂] at h
    | ok p₂ =>
      obtain ⟨v₂, q₂⟩ := p₂
      simp only [h₂] at h
      cases h₃ : decodeFields w payload q₂ ⟨none, none⟩ with
      | error e => simp [h₃] at h
      | ok found =>
        obtain ⟨insertCount, hic, -, -⟩ := decodeInteger_ok (by decide) h₁
        obtain ⟨base, hbase, -, -⟩ := decodeInteger_ok (by decide) h₂
        obtain ⟨lines, hlines⟩ := decodeFields_ok hw hlen h₃
        refine ⟨⟨insertCount, base, lines⟩, ?_⟩
        rw [FieldSection.wire, FieldSection.head, List.append_assoc, ← hlines, ← hbase, ← hic, List.drop_zero]

private theorem wireOf_injective {lines lines' : List FieldLine} (h : wireOf lines = wireOf lines') :
    lines = lines' := by
  induction lines generalizing lines' with
  | nil =>
    cases lines' with
    | nil => rfl
    | cons m ms =>
      have := m.wire_ne_nil
      simp [wireOf, List.flatMap_cons] at h
      exact absurd h.1.symm (by simpa using this.symm)
  | cons l ls ih =>
    cases lines' with
    | nil => exact absurd (List.append_eq_nil_iff.1 h).1 l.wire_ne_nil
    | cons m ms =>
      rw [wireOf, wireOf, List.flatMap_cons, List.flatMap_cons] at h
      obtain ⟨rfl, hrest⟩ := FieldLine.eq_of_wire_append h
      rw [ih hrest]

private theorem FieldSection.eq_of_wire {sec sec' : FieldSection} (h : sec.wire = sec'.wire) : sec = sec' := by
  obtain ⟨ic, base, lines⟩ := sec
  obtain ⟨ic', base', lines'⟩ := sec'
  simp only [wire, head, List.append_assoc] at h
  obtain ⟨rfl, h₁⟩ := PrefixInt.eq_of_wire_append h
  obtain ⟨rfl, h₂⟩ := PrefixInt.eq_of_wire_append h₁
  rw [wireOf_injective h₂]

/-- `decode_headers` accepts exactly the field sections with a status, every payload is one in at most one way,
and each round of the loop moves on, so that it ends. -/
theorem decodeHeaders_exact (w : Nat) (hw : 64 ≤ w) (payload : List UInt8) (hlen : payload.length < 2 ^ w) :
    (∀ r, decodeHeaders w payload = .ok r ↔
      ∃ sec : FieldSection, sec.wire = payload ∧ sec.status = some r.status ∧ sec.colo = r.colo) ∧
    (∀ sec sec' : FieldSection, sec.wire = payload → sec'.wire = payload → sec = sec') ∧
    (∀ pos b found found' q, decodeField w payload pos b found = .ok (found', q) → pos < q) := by
  refine ⟨fun r => ⟨fun h => ?_, ?_⟩, fun sec sec' h h' => FieldSection.eq_of_wire (h.trans h'.symm),
    fun _ _ _ _ _ => lt_of_decodeField⟩
  · obtain ⟨sec, rfl⟩ := exists_section hw hlen h
    rw [decodeHeaders_wire sec hlen, finish] at h
    refine ⟨sec, rfl, ?_⟩
    cases hs : sec.status with
    | none => simp [hs] at h
    | some status =>
      simp only [hs, Except.ok.injEq] at h
      subst h
      exact ⟨rfl, rfl⟩
  · rintro ⟨sec, rfl, hs, hc⟩
    rw [decodeHeaders_wire sec hlen, finish, hs, hc]

/-- A response with `:status 200` and `cf-warp-colo: LAX`, all plain. -/
theorem decodeHeaders_exact_lax :
    ([0x00, 0x00, 0xd9, 0x27, 0x05] ++ cfWarpColo ++ [0x03, 0x4c, 0x41, 0x58] : List UInt8).length < 2 ^ 64 ∧
    decodeHeaders 64 ([0x00, 0x00, 0xd9, 0x27, 0x05] ++ cfWarpColo ++ [0x03, 0x4c, 0x41, 0x58]) =
      .ok ⟨200, some "LAX"⟩ := by
  have hlen : ([0x00, 0x00, 0xd9, 0x27, 0x05] ++ cfWarpColo ++ [0x03, 0x4c, 0x41, 0x58] : List UInt8).length <
      2 ^ 64 := by
    decide
  let colo : FieldLine := .literalName ⟨⟨0x27, [0x05], by decide⟩, cfWarpColo, by decide⟩ (by decide)
    ⟨⟨0x03, [], by decide⟩, [0x4c, 0x41, 0x58], by decide⟩ ⟨cfWarpColo, rfl⟩ ⟨[0x4c, 0x41, 0x58], rfl⟩
  exact ⟨hlen, ((decodeHeaders_exact 64 (by decide) _ hlen).1 _).2
    ⟨⟨⟨0x00, [], by decide⟩, ⟨0x00, [], by decide⟩, [.indexed ⟨0xd9, [], by decide⟩ (by decide), colo]⟩, rfl, rfl,
      rfl⟩⟩

end WarpSocks.Masque.Qpack
