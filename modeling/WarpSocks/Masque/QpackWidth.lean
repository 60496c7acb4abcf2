import WarpSocks.Masque.QpackExact

/-!
# String lengths and the width of a `usize`

The declared length of a string is a `u64`, and `decode_headers` narrows it to a `usize` before it checks that the
string lies within the payload.  On 32 bits a length of `2 ^ 32` or more is reduced, and the check can pass for a
string that is not there (`decodeHeaders_width_truncates`).  Up to the first string that is longer than what is
left, both widths do the same; so everything depends on what is left of that one length (`decodeHeaders_width`).
-/

namespace WarpSocks.Masque.Qpack

open Wire (PrefixInt)

/-- The positions the loop of `decode_headers` comes to, with what it has found. -/
inductive Reaches (w : Nat) (payload : List UInt8) : Nat → Found → Prop
  | head {pos₁ pos₂ : Nat} (h₁ : skipInteger payload 0 8 = .ok pos₁) (h₂ : skipInteger payload pos₁ 7 = .ok pos₂) :
      Reaches w payload pos₂ ⟨none, none⟩
  | line {pos q : Nat} {b : UInt8} {found found' : Found} (h : Reaches w payload pos found)
      (hb : payload[pos]? = some b) (hline : decodeField w payload pos b found = .ok (found', q)) :
      Reaches w payload q found'

/-- The strings `decode_headers` checks: where the content starts and the declared length.  They are the value of a
Literal with Name Reference, and the name and, if the name is in order, the value of a Literal with Literal Name. -/
inductive Checks (w : Nat) (payload : List UInt8) : Nat → Nat → Prop
  | refValue {pos i n start len : Nat} {b : UInt8} {found : Found} (h : Reaches w payload pos found)
      (hb : payload[pos]? = some b) (kind : b &&& 0xc0 = 0x40) (hname : decodeInteger payload pos 4 = .ok (i, n))
      (hlen : decodeInteger payload n 7 = .ok (len, start)) : Checks w payload start len
  | name {pos start len : Nat} {b : UInt8} {found : Found} (h : Reaches w payload pos found)
      (hb : payload[pos]? = some b) (kind : b &&& 0xe0 = 0x20)
      (hlen : decodeInteger payload pos 3 = .ok (len, start)) :
      Checks w payload start len
  | value {pos n nameLen nameEnd start len : Nat} {b : UInt8} {found : Found} {name : List UInt8}
      (h : Reaches w payload pos found) (hb : payload[pos]? = some b) (kind : b &&& 0xe0 = 0x20)
      (hname : decodeInteger payload pos 3 = .ok (nameLen, n))
      (hend : literalEnd w payload n nameLen "字段名长度溢出" "字段名内容越界" = .ok nameEnd)
      (htext : decodeString (slice payload n nameEnd) (b &&& 0x08 != 0) = .ok name)
      (hlen : decodeInteger payload nameEnd 7 = .ok (len, start)) : Checks w payload start len

/-- No string passes its check that is longer than what is left. -/
def Sound (w : Nat) (payload : List UInt8) : Prop :=
  ∀ start len stop e₁ e₂, Checks w payload start len → literalEnd w payload start len e₁ e₂ = .ok stop →
    start + len ≤ payload.length

/-- The start of a field line up to the length of a string, with the declared length `len`, and behind it only the
`tail`, which is shorter. -/
inductive OpenLiteral : List UInt8 → Nat → List UInt8 → Prop
  | refValue (name : PrefixInt 4) (kind : name.first &&& 0xc0 = 0x40) (len : PrefixInt 7) (tail : List UInt8)
      (h : tail.length < len.value) : OpenLiteral (name.wire ++ (len.wire ++ tail)) len.value tail
  | name (len : PrefixInt 3) (kind : len.first &&& 0xe0 = 0x20) (tail : List UInt8) (h : tail.length < len.value) :
      OpenLiteral (len.wire ++ tail) len.value tail
  | value (name : Literal 3 0x08) (kind : name.len.first &&& 0xe0 = 0x20) (name_ok : ∃ s, name.text = .ok s)
      (len : PrefixInt 7) (tail : List UInt8) (h : tail.length < len.value) :
      OpenLiteral (name.wire ++ (len.wire ++ tail)) len.value tail

/-- If the payload ends inside a string, its length reduced to 32 bits is still longer than what is left, and does
not lead beyond `2 ^ 32`. -/
def Narrow (payload : List UInt8) : Prop :=
  ∀ (sec : FieldSection) (rest tail : List UInt8) (len : Nat), payload = sec.wire ++ rest →
    OpenLiteral rest len tail →
    tail.length < len % 2 ^ 32 ∧ payload.length - tail.length + len % 2 ^ 32 < 2 ^ 32

/-! ### Reaching a position -/

variable {w : Nat} {payload : List UInt8}

private theorem reaches_lines (hw : payload.length < 2 ^ w) (lines : List FieldLine) {y : List UInt8} :
    ∀ {pos : Nat} {found : Found}, Reaches w payload pos found → payload.drop pos = wireOf lines ++ y →
      Reaches w payload (pos + (wireOf lines).length) (applyAll lines found) := by
  induction lines with
  | nil => intro pos found h _; exact h
  | cons line lines ih =>
    intro pos found h hdrop
    rw [wireOf, List.flatMap_cons, List.append_assoc] at hdrop
    obtain ⟨b, hb, hline⟩ := decodeField_wire line found hw hdrop
    have := ih (.line h hb hline) (drop_append hdrop)
    rwa [Nat.add_assoc, ← List.length_append] at this

/-- Both widths come to the end of a complete section. -/
private theorem reaches_section (hw : payload.length < 2 ^ w) (sec : FieldSection) {y : List UInt8}
    (h : payload = sec.wire ++ y) : Reaches w payload sec.wire.length (applyAll sec.lines ⟨none, none⟩) := by
  have hhead : payload = sec.head ++ (wireOf sec.lines ++ y) := by rw [h, FieldSection.wire, List.append_assoc]
  have hdrop : payload.drop sec.head.length = wireOf sec.lines ++ y := by rw [hhead, List.drop_left]
  obtain ⟨pos, h₁, h₂⟩ := skipInteger_head sec hhead
  have := reaches_lines hw sec.lines (.head h₁ h₂) hdrop
  rwa [← List.length_append] at this

/-- A wide machine comes to no other positions. -/
private theorem exists_section_of_reaches (hw : 64 ≤ w) (hlen : payload.length < 2 ^ w) {pos : Nat} {found : Found}
    (h : Reaches w payload pos found) : ∃ sec : FieldSection, payload = sec.wire ++ payload.drop pos := by
  induction h with
  | head h₁ h₂ =>
    unfold skipInteger at h₁ h₂
    split at h₁
    · cases h₁
    rename_i hic
    split at h₂
    · cases h₂
    rename_i hbase
    simp only [Except.ok.injEq] at h₁ h₂
    subst h₁ h₂
    obtain ⟨insertCount, hi, -, -⟩ := decodeInteger_ok (by decide) hic
    obtain ⟨base, hb, -, -⟩ := decodeInteger_ok (by decide) hbase
    refine ⟨⟨insertCount, base, []⟩, ?_⟩
    rw [FieldSection.wire, FieldSection.head, wireOf, List.flatMap_nil, List.append_nil, List.append_assoc, ← hb,
      ← hi, List.drop_zero]
  | line h hb hline ih =>
    obtain ⟨⟨ic, base, lines⟩, hsec⟩ := ih
    obtain ⟨line, hdrop, -, -⟩ := decodeField_ok hw hlen hb hline
    refine ⟨⟨ic, base, lines ++ [line]⟩, ?_⟩
    rw [hdrop] at hsec
    simpa [FieldSection.wire, FieldSection.head, wireOf] using hsec

/-! ### Coming to a string that is not there -/

/-- Every width comes to check an open string, and fails if its check fails. -/
private theorem open_field {rest tail : List UInt8} {len pos : Nat} (hopen : OpenLiteral rest len tail)
    (hdrop : payload.drop pos = rest) :
    ∃ b e₁ e₂, payload[pos]? = some b ∧ e₁ ≠ e₂ ∧ ∀ w, payload.length < 2 ^ w →
      (∀ found, Reaches w payload pos found → Checks w payload (payload.length - tail.length) len) ∧
      ∀ e found, literalEnd w payload (payload.length - tail.length) len e₁ e₂ = .error e →
        decodeField w payload pos b found = .error e := by
  cases hopen with
  | refValue name kind l tail h =>
    obtain ⟨hget, -⟩ := drop_cons (show payload.drop pos = name.first :: (name.rest ++ (l.wire ++ tail)) from hdrop)
    have hname := decodeInteger_wire (by decide) name hdrop
    have hlen := decodeInteger_wire (by decide) l (drop_append hdrop)
    have htotal := length_of_drop (by simp [PrefixInt.wire]) (drop_append hdrop)
    have hstart : payload.length - tail.length = pos + name.wire.length + l.wire.length := by omega
    refine ⟨name.first, "值长度溢出", "值内容越界", hget, by decide, fun w hw => ⟨fun found hr => ?_, fun e found he => ?_⟩⟩
    · rw [hstart]
      exact .refValue hr hget kind hname hlen
    · rw [hstart] at he
      rw [decodeField, if_neg (not_indexed_of_nameRef _ kind), if_pos kind]
      simp only [decodeNameRef, hname, skipLiteralValue, hlen, he]
  | name l kind tail h =>
    obtain ⟨hget, -⟩ := drop_cons (show payload.drop pos = l.first :: (l.rest ++ tail) from hdrop)
    have hlen := decodeInteger_wire (by decide) l hdrop
    have htotal := length_of_drop (by simp [PrefixInt.wire]) hdrop
    have hstart : payload.length - tail.length = pos + l.wire.length := by omega
    obtain ⟨hbit, hbits⟩ := not_other_of_literalName _ kind
    refine ⟨l.first, "字段名长度溢出", "字段名内容越界", hget, by decide, fun w hw => ⟨fun found hr => ?_, fun e found he => ?_⟩⟩
    · rw [hstart]
      exact .name hr hget kind hlen
    · rw [hstart] at he
      rw [decodeField, if_neg hbit, if_neg hbits, if_pos kind]
      simp only [decodeLiteralName, hlen, he]
  | value name kind hok l tail h =>
    obtain ⟨text, htext⟩ := hok
    rw [Literal.text] at htext
    have hdrop' : payload.drop pos = name.len.wire ++ (name.raw ++ (l.wire ++ tail)) := by
      rw [hdrop, Literal.wire, List.append_assoc]
    obtain ⟨hget, -⟩ := drop_cons (show payload.drop pos = name.len.first :: (name.len.rest ++ _) from hdrop')
    have hname := decodeInteger_wire (by decide) name.len hdrop'
    have hlen := decodeInteger_wire (by decide) l (drop_append hdrop)
    obtain ⟨hget', -⟩ := drop_cons (show payload.drop (pos + name.wire.length) = l.first :: (l.rest ++ tail) from
      drop_append hdrop)
    have htotal := length_of_drop (by simp [PrefixInt.wire]) (drop_append hdrop)
    have hstart : payload.length - tail.length = pos + name.wire.length + l.wire.length := by omega
    obtain ⟨hbit, hbits⟩ := not_other_of_literalName _ kind
    refine ⟨name.len.first, "值长度溢出", "值内容越界", hget, by decide, fun w hw => ?_⟩
    obtain ⟨hend, hslice⟩ := literalEnd_wire name "字段名长度溢出" "字段名内容越界" hw hdrop
    rw [← hslice] at htext
    refine ⟨fun found hr => ?_, fun e found he => ?_⟩
    · rw [hstart]
      exact .value hr hget kind hname hend htext hlen
    · rw [hstart] at he
      rw [decodeField, if_neg hbit, if_neg hbits, if_pos kind]
      simp only [decodeLiteralName, hname, hend, htext, readLiteralValue, hget', hlen, he]

/-- On a wide machine a checked string that is too long is an open one. -/
private theorem open_of_checks (hw : 64 ≤ w) (hlen : payload.length < 2 ^ w) {start len : Nat}
    (h : Checks w payload start len) (hlong : payload.length < start + len) :
    ∃ (sec : FieldSection) (rest tail : List UInt8), payload = sec.wire ++ rest ∧ OpenLiteral rest len tail ∧
      payload.length - tail.length = start ∧ start ≤ payload.length := by
  cases h with
  | refValue h hb kind hname hl =>
    obtain ⟨sec, hsec⟩ := exists_section_of_reaches hw hlen h
    obtain ⟨i, hi, -, -⟩ := decodeInteger_ok (by decide) hname
    obtain ⟨j, hj, hstart, rfl⟩ := decodeInteger_ok (by decide) hl
    have htotal := length_of_drop (by simp [PrefixInt.wire]) hj
    rw [← first_of_wire hb hi] at kind
    rw [hi, hj] at hsec
    refine ⟨sec, _, _, hsec, .refValue i kind j _ ?_, ?_, ?_⟩ <;> rw [List.length_drop] at * <;> omega
  | name h hb kind hl =>
    obtain ⟨sec, hsec⟩ := exists_section_of_reaches hw hlen h
    obtain ⟨j, hj, hstart, rfl⟩ := decodeInteger_ok (by decide) hl
    have htotal := length_of_drop (by simp [PrefixInt.wire]) hj
    rw [← first_of_wire hb hj] at kind
    rw [hj] at hsec
    refine ⟨sec, _, _, hsec, .name j kind _ ?_, ?_, ?_⟩ <;> rw [List.length_drop] at * <;> omega
  | value h hb kind hname hend htext hl =>
    obtain ⟨sec, hsec⟩ := exists_section_of_reaches hw hlen h
    obtain ⟨i, hi, hn, rfl⟩ := decodeInteger_ok (by decide) hname
    obtain ⟨hstop, hle⟩ := literalEnd_ok (value_lt_two_pow (by decide) hw i) hend
    obtain ⟨name, hni, hraw, hwire, -⟩ := exists_literal 0x08 i hi hn hstop hle
    obtain ⟨j, hj, hstart, rfl⟩ := decodeInteger_ok (by decide) hl
    have htotal := length_of_drop (by simp [PrefixInt.wire]) hj
    rw [← first_of_wire hb hi, ← hni] at kind htext
    have hok : ∃ s, name.text = .ok s := ⟨_, by rw [Literal.text, hraw]; exact htext⟩
    rw [hwire, hj] at hsec
    refine ⟨sec, _, _, hsec, .value name kind hok j _ ?_, ?_, ?_⟩ <;> rw [List.length_drop] at * <;> omega

/-! ### Two widths -/

section Congr

variable {v : Nat} (heq : ∀ start len, Checks w payload start len →
  ∀ e₁ e₂, literalEnd v payload start len e₁ e₂ = literalEnd w payload start len e₁ e₂)

include heq

/-- Widths that agree on the strings that are checked agree on every line … -/
private theorem decodeField_congr {pos : Nat} {b : UInt8} {found : Found} (h : Reaches w payload pos found)
    (hb : payload[pos]? = some b) : decodeField v payload pos b found = decodeField w payload pos b found := by
  unfold decodeField
  split
  · rfl
  split
  · rename_i kind
    unfold decodeNameRef skipLiteralValue
    cases hname : decodeInteger payload pos 4 with
    | error e => rfl
    | ok p =>
      dsimp only
      cases hl : decodeInteger payload p.2 7 with
      | error e => rfl
      | ok q => simp only [heq _ _ (.refValue h hb kind hname hl)]
  split
  · rename_i kind
    unfold decodeLiteralName
    dsimp only
    cases hname : decodeInteger payload pos 3 with
    | error e => rfl
    | ok p =>
      simp only [heq _ _ (.name h hb kind hname)]
      cases hend : literalEnd w payload p.2 p.1 "字段名长度溢出" "字段名内容越界" with
      | error e => rfl
      | ok nameEnd =>
        dsimp only
        cases htext : decodeString (slice payload p.2 nameEnd) (b &&& 0x08 != 0) with
        | error e => rfl
        | ok name =>
          have hread : readLiteralValue v payload nameEnd = readLiteralValue w payload nameEnd := by
            unfold readLiteralValue
            cases payload[nameEnd]? with
            | none => rfl
            | some b' =>
              dsimp only
              cases hl : decodeInteger payload nameEnd 7 with
              | error e => rfl
              | ok q => simp only [heq _ _ (.value h hb kind hname hend htext hl)]
          simp only [hread]
  · rfl

/-- … and so on the whole loop. -/
private theorem decodeFields_congr {pos : Nat} {found : Found} (h : Reaches w payload pos found) :
    decodeFields v payload pos found = decodeFields w payload pos found := by
  induction hm : payload.length - pos using Nat.strongRecOn generalizing pos found with
  | ind m ih =>
    rw [decodeFields_eq, decodeFields_eq]
    cases hb : payload[pos]? with
    | none => rfl
    | some b =>
      simp only [decodeField_congr heq h hb]
      cases hline : decodeField w payload pos b found with
      | error e => rfl
      | ok p =>
        have hlt := lt_of_decodeField hline
        have hpos := (List.getElem?_eq_some_iff.1 hb).1
        exact ih (payload.length - p.2) (by omega) (.line h hb hline) rfl

private theorem reaches_congr {pos : Nat} {found : Found} (h : Reaches v payload pos found) :
    Reaches w payload pos found := by
  induction h with
  | head h₁ h₂ => exact .head h₁ h₂
  | line h hb hline ih =>
    rw [decodeField_congr heq ih hb] at hline
    exact .line ih hb hline

private theorem checks_congr {start len : Nat} (h : Checks v payload start len) : Checks w payload start len := by
  cases h with
  | refValue h hb kind hname hl => exact .refValue (reaches_congr heq h) hb kind hname hl
  | name h hb kind hl => exact .name (reaches_congr heq h) hb kind hl
  | value h hb kind hname hend htext hl =>
    have hr := reaches_congr heq h
    rw [heq _ _ (.name hr hb kind hname)] at hend
    exact .value hr hb kind hname hend htext hl

private theorem decodeHeaders_congr : decodeHeaders v payload = decodeHeaders w payload := by
  unfold decodeHeaders
  cases h₁ : skipInteger payload 0 8 with
  | error e => rfl
  | ok pos₁ =>
    dsimp only
    cases h₂ : skipInteger payload pos₁ 7 with
    | error e => rfl
    | ok pos₂ => simp only [decodeFields_congr heq (.head h₁ h₂)]

end Congr

private theorem literalEnd_error {start len : Nat} (e₁ e₂ : String) (h : payload.length < start + len % 2 ^ w) :
    literalEnd w payload start len e₁ e₂ = .error (if 2 ^ w ≤ start + len % 2 ^ w then e₁ else e₂) := by
  rw [literalEnd, if_pos h]
  split <;> rfl

private theorem OpenLiteral.bounds {rest tail : List UInt8} {len : Nat} (h : OpenLiteral rest len tail) :
    tail.length < len ∧ len < 2 ^ 63 + 2 ^ 8 ∧ tail <:+ rest := by
  cases h with
  | refValue name kind l tail h => exact ⟨h, l.value_lt (by decide), name.wire ++ l.wire, List.append_assoc _ _ _⟩
  | name l kind tail h => exact ⟨h, l.value_lt (by decide), l.wire, rfl⟩
  | value name kind hok l tail h => exact ⟨h, l.value_lt (by decide), name.wire ++ l.wire, List.append_assoc _ _ _⟩

/-- On 64 bits an open string is out of range, never an overflow. -/
private theorem literalEnd_64 {start len : Nat} (e₁ e₂ : String) (hlen : payload.length < 2 ^ 32)
    (hstart : start ≤ payload.length) (hmax : len < 2 ^ 63 + 2 ^ 8) (h : payload.length < start + len) :
    literalEnd 64 payload start len e₁ e₂ = .error e₂ := by
  have hmod : len % 2 ^ 64 = len := Nat.mod_eq_of_lt (by omega)
  rw [literalEnd_error e₁ e₂ (by omega), if_neg (by omega)]

/-- An error behind a complete section is the result. -/
private theorem decodeHeaders_error (hw : payload.length < 2 ^ w) {sec : FieldSection} {rest : List UInt8} {b : UInt8}
    {e : String} (hsec : payload = sec.wire ++ rest) (hb : payload[sec.wire.length]? = some b)
    (h : ∀ found, decodeField w payload sec.wire.length b found = .error e) : decodeHeaders w payload = .error e := by
  have hhead : payload = sec.head ++ (wireOf sec.lines ++ rest) := by rw [hsec, FieldSection.wire, List.append_assoc]
  have hdrop : payload.drop sec.head.length = wireOf sec.lines ++ rest := by rw [hhead, List.drop_left]
  rw [FieldSection.wire, List.length_append] at hb h
  rw [decodeHeaders_head w sec hhead, decodeFields_wire hw sec.lines _ hdrop, decodeFields_eq, hb]
  simp only [h]
  rfl

/-- If the widths agree and 32 bits are safe, the check of an open string fails on 32 bits, and for the same
reason as on 64 bits. -/
private theorem narrow_of_sound (hlen : payload.length < 2 ^ 32) (h32 : Sound 32 payload)
    (hsame : decodeHeaders 32 payload = decodeHeaders 64 payload) : Narrow payload := by
  intro sec rest tail len hsec hopen
  have hlen' : payload.length < 2 ^ 64 := Nat.lt_trans hlen (by decide)
  obtain ⟨htail, hmax, hsuf⟩ := hopen.bounds
  have hle : tail.length ≤ payload.length := by
    have := hsuf.length_le
    rw [hsec, List.length_append]
    omega
  have hdrop : payload.drop sec.wire.length = rest := by rw [hsec, List.drop_left]
  obtain ⟨b, e₁, e₂, hb, hne, hfield⟩ := open_field hopen hdrop
  have hcheck := (hfield 32 hlen).1 _ (reaches_section hlen sec hsec)
  have hlong : payload.length < payload.length - tail.length + len % 2 ^ 32 := by
    apply Nat.lt_of_not_le
    intro hshort
    have hok : literalEnd 32 payload (payload.length - tail.length) len e₁ e₂ =
        .ok (payload.length - tail.length + len % 2 ^ 32) := by
      rw [literalEnd, if_neg (by omega), if_neg (by omega)]
    have := h32 _ _ _ _ _ hcheck hok
    omega
  refine ⟨by omega, ?_⟩
  -- an overflow would have another text
  apply Nat.lt_of_not_le
  intro hover
  have hrun : decodeHeaders 32 payload = .error e₁ := decodeHeaders_error hlen hsec hb fun found =>
    (hfield 32 hlen).2 e₁ found (by rw [literalEnd_error e₁ e₂ hlong, if_pos hover])
  have hrun' : decodeHeaders 64 payload = .error e₂ := decodeHeaders_error hlen' hsec hb fun found =>
    (hfield 64 hlen').2 e₂ found (literalEnd_64 e₁ e₂ hlen (by omega) hmax (by omega))
  rw [hrun, hrun', Except.error.injEq] at hsame
  exact hne hsame

/-- In a narrow payload a checked string that is too long is out of range on both widths. -/
private theorem literalEnd_of_narrow (hlen : payload.length < 2 ^ 32) (hnarrow : Narrow payload) {start len : Nat}
    (hcheck : Checks 64 payload start len) (hl : payload.length < start + len) (e₁ e₂ : String) :
    literalEnd 32 payload start len e₁ e₂ = .error e₂ ∧ literalEnd 64 payload start len e₁ e₂ = .error e₂ := by
  have hlen' : payload.length < 2 ^ 64 := Nat.lt_trans hlen (by decide)
  obtain ⟨sec, rest, tail, hsec, hopen, rfl, hstart⟩ := open_of_checks (Nat.le_refl 64) hlen' hcheck hl
  obtain ⟨htail, hmax, -⟩ := hopen.bounds
  obtain ⟨h₁, h₂⟩ := hnarrow sec rest tail len hsec hopen
  constructor
  · rw [literalEnd_error e₁ e₂ (by omega), if_neg (by omega)]
  · exact literalEnd_64 e₁ e₂ hlen hstart hmax hl

/-- The width of a `usize`.  For every payload a 32-bit machine can hold: no string that is not there passes its
check on either width, and the results are the same, if and only if the payload is narrow. -/
theorem decodeHeaders_width (payload : List UInt8) (hlen : payload.length < 2 ^ 32) :
    (Sound 32 payload ∧ Sound 64 payload ∧ decodeHeaders 32 payload = decodeHeaders 64 payload) ↔ Narrow payload := by
  constructor
  · rintro ⟨h32, -, hsame⟩
    exact narrow_of_sound hlen h32 hsame
  · intro hnarrow
    have heq : ∀ start len, Checks 64 payload start len →
        ∀ e₁ e₂, literalEnd 32 payload start len e₁ e₂ = literalEnd 64 payload start len e₁ e₂ := by
      intro start len hcheck e₁ e₂
      by_cases hl : start + len ≤ payload.length
      · rw [literalEnd_of_le e₁ e₂ hlen hl, literalEnd_of_le e₁ e₂ (Nat.lt_trans hlen (by decide)) hl]
      · obtain ⟨h₁, h₂⟩ := literalEnd_of_narrow hlen hnarrow hcheck (Nat.lt_of_not_le hl) e₁ e₂
        rw [h₁, h₂]
    have h64 : Sound 64 payload := by
      intro start len stop e₁ e₂ hcheck hok
      apply Nat.le_of_not_lt
      intro hl
      rw [(literalEnd_of_narrow hlen hnarrow hcheck hl e₁ e₂).2] at hok
      cases hok
    refine ⟨fun start len stop e₁ e₂ hcheck hok => ?_, h64, decodeHeaders_congr heq⟩
    -- what 32 bits check and accept, 64 bits check and accept
    have hcheck' := checks_congr heq hcheck
    rw [heq start len hcheck'] at hok
    exact h64 start len stop e₁ e₂ hcheck' hok

/-- A value declared to have `2 ^ 32` bytes, with none behind it, is not narrow. -/
theorem decodeHeaders_width_not_narrow :
    [0x00, 0x00, 0xd9, 0x50, 0x7f, 0x81, 0xff, 0xff, 0xff, (0x0f : UInt8)].length < 2 ^ 32 ∧
    ¬ Narrow [0x00, 0x00, 0xd9, 0x50, 0x7f, 0x81, 0xff, 0xff, 0xff, 0x0f] := by
  have hlen : [0x00, 0x00, 0xd9, 0x50, 0x7f, 0x81, 0xff, 0xff, 0xff, (0x0f : UInt8)].length < 2 ^ 32 := by decide
  refine ⟨hlen, fun h => ?_⟩
  have hsame := ((decodeHeaders_width _ hlen).2 h).2.2
  revert hsame
  decide +kernel

/-- The section `00 00 d9`, and behind it the start of a literal whose value is declared to have `2 ^ 32` bytes
and has none. -/
theorem decodeHeaders_width_truncates :
    decodeHeaders 32 [0x00, 0x00, 0xd9, 0x50, 0x7f, 0x81, 0xff, 0xff, 0xff, 0x0f] = .ok ⟨200, none⟩ ∧
    decodeHeaders 64 [0x00, 0x00, 0xd9, 0x50, 0x7f, 0x81, 0xff, 0xff, 0xff, 0x0f] = .error "值内容越界" := by
  decide +kernel

end WarpSocks.Masque.Qpack
