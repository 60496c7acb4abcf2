import WarpSocks.Masque.QpackExact

/-!
# The representations of `:status`

A response may spell its status as an Indexed Field Line of the static table, as a literal that takes the name
from the static table, or as a literal with a literal name.  `decode_headers` looks for the status in Indexed
Field Lines only: it finds it there in every valid section, and with the status in a literal it fails with its own
error (`decodeHeaders_status`).
-/

namespace WarpSocks.Masque.Qpack

open Wire (PrefixInt)

/-- The `:status` entries of the static table (RFC 9204, appendix A): index and value. -/
def statusEntries : List (Nat × Nat) :=
  [(24, 103), (25, 200), (26, 304), (27, 404), (28, 503), (63, 100), (64, 204), (65, 206), (66, 302), (67, 400),
   (68, 403), (69, 421), (70, 425), (71, 500)]

/-- The number of entries of the static table. -/
def staticTableSize : Nat := 99

/-- The name `:status`. -/
def statusName : List UInt8 := [0x3a, 0x73, 0x74, 0x61, 0x74, 0x75, 0x73]

/-- The three digits of a status. -/
def decimal (status : Nat) : List UInt8 :=
  [UInt8.ofNat (48 + status / 100), UInt8.ofNat (48 + status / 10 % 10), UInt8.ofNat (48 + status % 10)]

namespace FieldLine

/-- A line that is valid without a dynamic table: its index is one of the static table, and its strings decode. -/
def Static : FieldLine → Prop
  | .indexed index _ => index.first &&& 0x40 ≠ 0 ∧ index.value < staticTableSize
  | .nameRef name _ value => name.first &&& 0x10 ≠ 0 ∧ name.value < staticTableSize ∧ ∃ s, value.text = .ok s
  | .literalName _ _ _ _ _ => True

/-- The value of a `:status` field, in whatever representation. -/
def statusText : FieldLine → Option (List UInt8)
  | .indexed index _ => (statusEntries.lookup index.value).map decimal
  | .nameRef name _ value => if (statusEntries.lookup name.value).isSome then value.text.toOption else none
  | .literalName name _ value _ _ =>
    if name.text.toOption = some statusName then value.text.toOption else none

/-- The line is an Indexed Field Line. -/
def isIndexed : FieldLine → Bool
  | .indexed _ _ => true
  | _ => false

end FieldLine

/-- A field section that is valid without a dynamic table. -/
def FieldSection.Static (sec : FieldSection) : Prop := sec.insertCount.value = 0 ∧ ∀ line ∈ sec.lines, line.Static

private theorem staticStatus_eq (idx : Nat) : staticStatus idx = statusEntries.lookup idx := by
  unfold staticStatus
  split
  case h_15 =>
    symm
    rw [List.lookup_eq_none_iff]
    simp_all [statusEntries]
  all_goals rfl

private theorem staticStatus_lt {idx code : Nat} (h : staticStatus idx = some code) : code < 1000 := by
  unfold staticStatus at h
  split at h
  all_goals
    simp only [Option.some.injEq, reduceCtorEq] at h
    try omega

private theorem decimal_injective {m n : Nat} (hm : m < 1000) (hn : n < 1000) (h : decimal m = decimal n) :
    m = n := by
  simp only [decimal, List.cons.injEq, ← UInt8.toNat_inj, UInt8.toNat_ofNat'] at h
  omega

namespace FieldLine

/-- In a valid line `decode_headers` sees the status of an Indexed Field Line … -/
private theorem statusText_indexed {line : FieldLine} (hline : line.Static) (hi : line.isIndexed) :
    line.statusText = line.status.map decimal := by
  cases line with
  | indexed index kind =>
    have hbit : (index.first &&& 0x40 != 0) = true := by simpa using hline.1
    rw [statusText, status, if_pos hbit, staticStatus_eq]
  | nameRef name kind value => cases hi
  | literalName name kind value hn hv => cases hi

/-- … and no other. -/
private theorem status_literal {line : FieldLine} (hi : line.isIndexed = false) : line.status = none := by
  cases line with
  | indexed index kind => cases hi
  | nameRef name kind value => rfl
  | literalName name kind value hn hv => rfl

private theorem status_of_statusText_none {line : FieldLine} (hline : line.Static) (h : line.statusText = none) :
    line.status = none := by
  cases hi : line.isIndexed with
  | false => exact status_literal hi
  | true =>
    rw [statusText_indexed hline hi, Option.map_eq_none_iff] at h
    exact h

end FieldLine

/-- The representations of `:status`.  In a valid section with exactly one `:status` field, with a value of three
digits, `decode_headers` returns that status if the field is an Indexed Field Line, and fails for want of a status
if it is a literal. -/
theorem decodeHeaders_status (w : Nat) (sec : FieldSection) (hw : sec.wire.length < 2 ^ w) (hsec : sec.Static)
    (status : Nat) (hstatus : status < 1000) (hone : sec.lines.filterMap FieldLine.statusText = [decimal status]) :
    ∃ line ∈ sec.lines, line.statusText = some (decimal status) ∧
      (line.isIndexed → ∃ colo, decodeHeaders w sec.wire = .ok ⟨status, colo⟩) ∧
      (line.isIndexed = false → decodeHeaders w sec.wire = .error "响应头中未找到 :status") := by
  obtain ⟨pre, line, post, hlines, hpre, hline, hpost⟩ := List.filterMap_eq_cons_iff.1 hone
  rw [List.filterMap_eq_nil_iff] at hpost
  have hmem : line ∈ sec.lines := by simp [hlines]
  have hvalid : ∀ l ∈ sec.lines, l.statusText = none → l.status = none :=
    fun l hl => FieldLine.status_of_statusText_none (hsec.2 l hl)
  -- no other line has a status
  have hsec' : sec.status = line.status := by
    have hp : pre.filterMap FieldLine.status = [] :=
      List.filterMap_eq_nil_iff.2 fun l hl => hvalid l (by simp [hlines, hl]) (hpre l hl)
    have hq : post.filterMap FieldLine.status = [] :=
      List.filterMap_eq_nil_iff.2 fun l hl => hvalid l (by simp [hlines, hl]) (hpost l hl)
    rw [FieldSection.status, hlines, List.filterMap_append, hp, List.nil_append, List.filterMap_cons, hq]
    cases line.status <;> rfl
  refine ⟨line, hmem, hline, fun hi => ?_, fun hi => ?_⟩
  · rw [FieldLine.statusText_indexed (hsec.2 line hmem) hi] at hline
    obtain ⟨code, hcode, hdec⟩ := Option.map_eq_some_iff.1 hline
    have hlt : code < 1000 := by
      cases line with
      | indexed index kind =>
        rw [FieldLine.status] at hcode
        split at hcode
        · exact staticStatus_lt hcode
        · cases hcode
      | nameRef name kind value => cases hi
      | literalName name kind value hn hv => cases hi
    obtain rfl := decimal_injective hlt hstatus hdec
    exact ⟨sec.colo, by rw [decodeHeaders_wire sec hw, finish, hsec', hcode]⟩
  · rw [decodeHeaders_wire sec hw, finish, hsec', FieldLine.status_literal hi]

/-- A section with `server: a`, the name from the static table, status 200 as an Indexed Field Line, and `a: b`,
with a literal name. -/
theorem decodeHeaders_status_indexed :
    ∃ sec : FieldSection, sec.wire = [0x00, 0x00, 0x5f, 0x4d, 0x01, 0x61, 0xd9, 0x21, 0x61, 0x01, 0x62] ∧ sec.Static ∧
      sec.lines.filterMap FieldLine.statusText = [decimal 200] ∧
      ∃ colo, decodeHeaders 64 sec.wire = .ok ⟨200, colo⟩ := by
  let server : FieldLine :=
    .nameRef ⟨0x5f, [0x4d], by decide⟩ (by decide) ⟨⟨0x01, [], by decide⟩, [0x61], rfl⟩
  let status : FieldLine := .indexed ⟨0xd9, [], by decide⟩ (by decide)
  let field : FieldLine :=
    .literalName ⟨⟨0x21, [], by decide⟩, [0x61], rfl⟩ (by decide) ⟨⟨0x01, [], by decide⟩, [0x62], rfl⟩ ⟨_, rfl⟩
      ⟨_, rfl⟩
  let sec : FieldSection := ⟨⟨0x00, [], by decide⟩, ⟨0x00, [], by decide⟩, [server, status, field]⟩
  have hstatic : sec.Static := by
    refine ⟨rfl, fun line hline => ?_⟩
    simp only [sec, List.mem_cons, List.not_mem_nil, or_false] at hline
    rcases hline with rfl | rfl | rfl
    · exact ⟨by decide, by decide, _, rfl⟩
    · exact ⟨by decide, by decide⟩
    · trivial
  obtain ⟨line, hmem, htext, hok, -⟩ := decodeHeaders_status 64 sec (by decide) hstatic 200 (by decide) rfl
  simp only [sec, List.mem_cons, List.not_mem_nil, or_false] at hmem
  rcases hmem with rfl | rfl | rfl
  · nomatch htext
  · exact ⟨sec, rfl, hstatic, rfl, hok rfl⟩
  · nomatch htext

/-- The section `00 00 5f 09 03 34 30 31`: status 401, with the name from the static table. -/
theorem decodeHeaders_status_literal :
    ∃ sec : FieldSection, sec.wire = [0x00, 0x00, 0x5f, 0x09, 0x03, 0x34, 0x30, 0x31] ∧ sec.Static ∧
      sec.lines.filterMap FieldLine.statusText = [decimal 401] ∧
      decodeHeaders 64 sec.wire = .error "响应头中未找到 :status" := by
  let sec : FieldSection := ⟨⟨0x00, [], by decide⟩, ⟨0x00, [], by decide⟩,
    [.nameRef ⟨0x5f, [0x09], by decide⟩ (by decide) ⟨⟨0x03, [], by decide⟩, [0x34, 0x30, 0x31], rfl⟩]⟩
  refine ⟨sec, rfl, ⟨rfl, fun line hline => ?_⟩, rfl, ?_⟩
  · obtain rfl := List.mem_singleton.1 hline
    exact ⟨by decide, by decide, [0x34, 0x30, 0x31], rfl⟩
  · rw [decodeHeaders_wire sec (by decide)]
    rfl

end WarpSocks.Masque.Qpack
