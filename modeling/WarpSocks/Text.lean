import Mathlib.Data.List.DropRight

/-!
# Texts of the standard library

The methods of `str` that work on its characters, and its UTF-8 bytes.
-/

namespace WarpSocks.Text

/-- `str::as_bytes`. -/
def asBytes (s : String) : List UInt8 := s.toUTF8.data.toList

/-- `str::trim_end_matches`, for a character. -/
def trimEndMatches (s : String) (c : Char) : String := .ofList (s.toList.rdropWhile (· == c))

/-- `str::split`, at a character. -/
def split (s : String) (c : Char) : List String := (s.toList.splitOn c).map .ofList

/-- `char::is_whitespace`. -/
def isWhitespace (c : Char) : Bool :=
  ('\u0009' ≤ c && c ≤ '\u000d') || c == ' ' || c == '\u0085' || c == '\u00a0' || c == '\u1680' ||
    ('\u2000' ≤ c && c ≤ '\u200a') || c == '\u2028' || c == '\u2029' || c == '\u202f' || c == '\u205f' ||
      c == '\u3000'

/-- `str::trim`. -/
def trim (s : String) : String := .ofList ((s.toList.dropWhile isWhitespace).rdropWhile isWhitespace)

/-- `str::strip_prefix`, for a character. -/
def stripPrefix (s : String) (c : Char) : Option String :=
  match s.toList with
  | [] => none
  | d :: rest => if d = c then some (.ofList rest) else none

/-- `str::split_once`, at a character. -/
def splitOnce (s : String) (c : Char) : Option (String × String) :=
  if c ∈ s.toList then
    some (.ofList (s.toList.takeWhile (· != c)), .ofList (s.toList.dropWhile (· != c)).tail)
  else none

/-- `str::rsplit_once`, at a character: the parts before and behind the place that `str::rfind` finds. -/
def rsplitOnce (s : String) (c : Char) : Option (String × String) :=
  if c ∈ s.toList then
    some (.ofList (s.toList.reverse.dropWhile (· != c)).tail.reverse,
      .ofList (s.toList.reverse.takeWhile (· != c)).reverse)
  else none

/-- `str::eq_ignore_ascii_case`. -/
def eqIgnoreAsciiCase (s t : String) : Bool := s.toLower == t.toLower

theorem toLower_eq {s t : String} (h : s.toList.map Char.toLower = t.toList) : s.toLower = t := by
  rw [← String.toList_inj]
  exact (String.toList_map ..).trans h

/-- The number that decimal digits spell, if it is less than `size`. -/
def parseDigits (size : Nat) (cs : List Char) : Option Nat :=
  if cs ≠ [] ∧ cs.all Char.isDigit ∧ Nat.ofDigitChars 10 cs 0 < size then some (Nat.ofDigitChars 10 cs 0) else none

/-- `str::parse`, for the unsigned type with `size` values. -/
def parseUnsigned (size : Nat) (s : String) : Option Nat :=
  match s.toList with
  | '+' :: c :: cs => parseDigits size (c :: cs)
  | cs => parseDigits size cs

/-- `ParseIntError::fmt`, for a text that is no number of the unsigned type with `size` values. -/
def parseIntError (size : Nat) (s : String) : String :=
  let digits :=
    match s.toList with
    | '+' :: c :: cs => c :: cs
    | cs => cs
  if s.isEmpty then "cannot parse integer from empty string"
  else if size ≤ Nat.ofDigitChars 10 (digits.takeWhile Char.isDigit) 0 then "number too large to fit in target type"
  else "invalid digit found in string"

/-- `str::strip_suffix`, for a carriage return, with the text itself if there is none. -/
def stripCr (line : String) : String :=
  if line.toList.getLast? = some '\r' then .ofList line.toList.dropLast else line

/-- `str::lines`: the last line may have no newline, and is then taken as it is. -/
def lines (s : String) : List String :=
  (split s '\n').dropLast.map stripCr ++ ((split s '\n').getLast?.filter (· ≠ "")).toList

/-- A fact about bytes, looked up. -/
theorem forall_byte {P : UInt8 → Prop} (h : ∀ n < 256, P (UInt8.ofNat n)) (b : UInt8) : P b := by
  have hb := h b.toNat b.toNat_lt
  rwa [UInt8.ofNat_toNat] at hb

theorem asBytes_eq_flatMap (s : String) : asBytes s = s.toList.flatMap String.utf8EncodeChar := by
  unfold asBytes String.toUTF8
  rw [← String.utf8Encode_toList]
  simp [List.utf8Encode]

private theorem asBytes_ofList (cs : List Char) : asBytes (.ofList cs) = cs.flatMap String.utf8EncodeChar := by
  rw [asBytes_eq_flatMap, String.toList_ofList]

theorem asBytes_append (s t : String) : asBytes (s ++ t) = asBytes s ++ asBytes t := by
  rw [asBytes_eq_flatMap, String.toList_append, List.flatMap_append, ← asBytes_eq_flatMap, ← asBytes_eq_flatMap]

theorem asBytes_injective {s t : String} (h : asBytes s = asBytes t) : s = t := by
  have hb : s.toByteArray = t.toByteArray := ByteArray.ext (Array.ext' h)
  exact String.toByteArray_inj.1 hb

theorem utf8EncodeChar_of_lt {c : Char} (h : c.val.toNat < 128) :
    String.utf8EncodeChar c = [UInt8.ofNat c.val.toNat] := by
  unfold String.utf8EncodeChar
  dsimp only
  rw [if_pos (by omega)]

/-- The bytes of ASCII characters. -/
theorem asBytes_of_lt {cs : List Char} (h : ∀ c ∈ cs, c.val.toNat < 128) :
    asBytes (.ofList cs) = cs.map fun c => UInt8.ofNat c.val.toNat := by
  rw [asBytes_ofList, List.flatMap_def, List.map_congr_left fun c hc => utf8EncodeChar_of_lt (h c hc),
    ← List.flatMap_def, ← List.map_eq_flatMap]

/-- Outside of ASCII the bytes of a character are at least 128. -/
theorem le_of_mem_utf8EncodeChar {c : Char} (h : 128 ≤ c.val.toNat) {b : UInt8} (hb : b ∈ String.utf8EncodeChar c) :
    128 ≤ b.toNat := by
  unfold String.utf8EncodeChar at hb
  dsimp only at hb
  rw [if_neg (by omega)] at hb
  split at hb
  · simp only [List.mem_cons, List.not_mem_nil, or_false] at hb
    rcases hb with rfl | rfl <;> rw [UInt8.toNat_ofNat'] <;> omega
  · split at hb
    · simp only [List.mem_cons, List.not_mem_nil, or_false] at hb
      rcases hb with rfl | rfl | rfl <;> rw [UInt8.toNat_ofNat'] <;> omega
    · simp only [List.mem_cons, List.not_mem_nil, or_false] at hb
      rcases hb with rfl | rfl | rfl | rfl <;> rw [UInt8.toNat_ofNat'] <;> omega

/-- An ASCII character occurs in a text if its byte does. -/
theorem mem_asBytes_iff {s : String} {c : Char} (h : c.val.toNat < 128) :
    UInt8.ofNat c.val.toNat ∈ asBytes s ↔ c ∈ s.toList := by
  rw [asBytes_eq_flatMap, List.mem_flatMap]
  constructor
  · rintro ⟨d, hd, hb⟩
    by_cases hlt : d.val.toNat < 128
    · rw [utf8EncodeChar_of_lt hlt, List.mem_singleton, ← UInt8.toNat_inj, UInt8.toNat_ofNat',
        UInt8.toNat_ofNat'] at hb
      have heq : c = d := Char.ext (UInt32.toNat_inj.1 (by omega))
      exact heq ▸ hd
    · have hle := le_of_mem_utf8EncodeChar (by omega) hb
      rw [UInt8.toNat_ofNat'] at hle
      omega
  · intro hc
    exact ⟨c, hc, by rw [utf8EncodeChar_of_lt h]; exact List.mem_singleton_self _⟩

/-- A text with ASCII bytes only has ASCII characters only. -/
theorem lt_of_asBytes_lt {s : String} (h : ∀ b ∈ asBytes s, b.toNat < 128) {c : Char} (hc : c ∈ s.toList) :
    c.val.toNat < 128 := by
  by_contra hge
  obtain ⟨b, hb⟩ := List.exists_mem_of_ne_nil (String.utf8EncodeChar c) (String.utf8EncodeChar_ne_nil)
  have hle := le_of_mem_utf8EncodeChar (by omega) hb
  have hlt := h b (by rw [asBytes_eq_flatMap, List.mem_flatMap]; exact ⟨c, hc, hb⟩)
  omega

private theorem flatMap_intercalate {α β : Type} (f : α → List β) (sep : List α) (parts : List (List α)) :
    (sep.intercalate parts).flatMap f = (sep.flatMap f).intercalate (parts.map (·.flatMap f)) := by
  induction parts with
  | nil => rfl
  | cons p ps ih =>
    cases ps with
    | nil => simp
    | cons q qs =>
      simp only [List.map_cons, List.intercalate_cons_cons, List.flatMap_append] at ih ⊢
      rw [ih]

theorem asBytes_intercalate (sep : String) (parts : List String) :
    asBytes (sep.intercalate parts) = (asBytes sep).intercalate (parts.map asBytes) := by
  have hparts : parts.map asBytes = (parts.map String.toList).map (·.flatMap String.utf8EncodeChar) := by
    rw [List.map_map]
    exact List.map_congr_left fun s _ => asBytes_eq_flatMap s
  rw [asBytes_eq_flatMap, String.toList_intercalate, flatMap_intercalate, hparts, asBytes_eq_flatMap]

/-- The bytes of the parts, joined with those of the separator, are the bytes of the whole. -/
theorem intercalate_asBytes_split (s : String) (c : Char) :
    (String.utf8EncodeChar c).intercalate ((split s c).map asBytes) = asBytes s := by
  have hparts : (split s c).map asBytes = (s.toList.splitOn c).map (·.flatMap String.utf8EncodeChar) := by
    simp only [split, List.map_map]
    exact List.map_congr_left fun cs _ => asBytes_ofList cs
  have hsep : [c].flatMap String.utf8EncodeChar = String.utf8EncodeChar c := by simp
  rw [hparts, ← hsep, ← flatMap_intercalate, List.intercalate_splitOn, asBytes_eq_flatMap]

/-- The parts of an image are the images of the parts. -/
theorem splitOnP_map {α β : Type} (f : α → β) (p : β → Bool) (xs : List α) :
    (xs.map f).splitOnP p = (xs.splitOnP (p ∘ f)).map (List.map f) := by
  induction xs with
  | nil => simp [List.splitOnP_nil]
  | cons x xs ih =>
    rw [List.map_cons, List.splitOnP_cons_eq_if_modifyHead, List.splitOnP_cons_eq_if_modifyHead, ih,
      Function.comp_apply]
    split
    · rfl
    · cases xs.splitOnP (p ∘ f) with
      | nil => rfl
      | cons part parts => rfl

theorem mem_of_mem_splitOnP {α : Type} {p : α → Bool} {xs part : List α} (h : part ∈ xs.splitOnP p) {x : α}
    (hx : x ∈ part) :
    x ∈ xs := by
  induction xs generalizing part with
  | nil =>
    rw [List.splitOnP_nil, List.mem_singleton] at h
    rw [h] at hx
    cases hx
  | cons y xs ih =>
    rw [List.splitOnP_cons_eq_if_modifyHead] at h
    split at h
    · rcases List.mem_cons.1 h with rfl | h
      · cases hx
      · exact List.mem_cons_of_mem y (ih h hx)
    · cases hparts : xs.splitOnP p with
      | nil =>
        rw [hparts] at h
        cases h
      | cons part' parts =>
        rw [hparts, List.modifyHead_cons] at h
        rw [hparts] at ih
        rcases List.mem_cons.1 h with rfl | h
        · rcases List.mem_cons.1 hx with rfl | hx
          · exact List.mem_cons_self
          · exact List.mem_cons_of_mem y (ih List.mem_cons_self hx)
        · exact List.mem_cons_of_mem y (ih (List.mem_cons_of_mem part' h) hx)

theorem split_of_notMem {s : String} {c : Char} (h : c ∉ s.toList) : split s c = [s] := by
  rw [split, List.splitOn_eq_singleton h, List.map_singleton, String.ofList_toList]

theorem split_of_append {s a b : String} {c : Char} (hs : s.toList = a.toList ++ c :: b.toList) (ha : c ∉ a.toList) :
    split s c = a :: split b c := by
  have hfront : ∀ d ∈ a.toList, (d == c) = false := by
    intro d hd
    simpa using fun heq : d = c => ha (heq ▸ hd)
  rw [split, split, hs, List.splitOn, List.splitOnP_append_cons_of_forall_mem hfront c (beq_self_eq_true c) b.toList,
    List.map_cons, String.ofList_toList]
  rfl

theorem stripPrefix_eq_some_iff {s t : String} {c : Char} : stripPrefix s c = some t ↔ s.toList = c :: t.toList := by
  unfold stripPrefix
  cases s.toList with
  | nil => simp
  | cons d rest =>
    by_cases hd : d = c
    · simp [hd, ← String.toList_inj]
    · simp [hd]

theorem stripPrefix_eq_none_iff {s : String} {c : Char} : stripPrefix s c = none ↔ ∀ cs, s.toList ≠ c :: cs := by
  unfold stripPrefix
  cases s.toList with
  | nil => simp
  | cons d rest => simp

/-- The parts of a list before and from the first `c` on. -/
private theorem while_ne {front : List Char} (back : List Char) {c : Char} (h : c ∉ front) :
    (front ++ c :: back).takeWhile (· != c) = front ∧ (front ++ c :: back).dropWhile (· != c) = c :: back := by
  have hfront : ∀ d ∈ front, (d != c) = true := by
    intro d hd
    simpa using fun heq : d = c => h (heq ▸ hd)
  rw [List.takeWhile_append_of_pos hfront, List.dropWhile_append_of_pos hfront]
  simp

/-- The first part has no `c`. -/
theorem splitOnce_eq_some_iff {s a b : String} {c : Char} :
    splitOnce s c = some (a, b) ↔ s.toList = a.toList ++ c :: b.toList ∧ c ∉ a.toList := by
  unfold splitOnce
  constructor
  · intro h
    split at h
    · rename_i hmem
      cases h
      obtain ⟨front, back, hs, hfront⟩ := List.eq_append_cons_of_mem hmem
      obtain ⟨htake, hdrop⟩ := while_ne back hfront
      rw [hs, htake, hdrop]
      simp [hfront]
    · cases h
  · rintro ⟨hs, ha⟩
    obtain ⟨htake, hdrop⟩ := while_ne b.toList ha
    rw [hs, if_pos (by simp), htake, hdrop, List.tail_cons, String.ofList_toList, String.ofList_toList]

/-- The second part has no `c`. -/
theorem rsplitOnce_eq_some_iff {s a b : String} {c : Char} :
    rsplitOnce s c = some (a, b) ↔ s.toList = a.toList ++ c :: b.toList ∧ c ∉ b.toList := by
  have hreverse : splitOnce (.ofList s.toList.reverse) c = some (.ofList b.toList.reverse, .ofList a.toList.reverse) ↔
      s.toList = a.toList ++ c :: b.toList ∧ c ∉ b.toList := by
    rw [splitOnce_eq_some_iff]
    simp only [String.toList_ofList, List.mem_reverse]
    rw [← List.reverse_inj, List.reverse_append, List.reverse_cons]
    simp
  rw [← hreverse, rsplitOnce, splitOnce]
  simp only [String.toList_ofList, List.mem_reverse]
  split
  · simp [← String.toList_inj, List.reverse_eq_iff, and_comm]
  · simp

theorem rsplitOnce_eq_none_iff {s : String} {c : Char} : rsplitOnce s c = none ↔ c ∉ s.toList := by
  simp [rsplitOnce]

theorem isWhitespace_of_isDigit {c : Char} (h : c.isDigit) : isWhitespace c = false := by
  have hdigits : ∀ n < 58, 48 ≤ n → isWhitespace (Char.ofNat n) = false := by decide
  simp only [Char.isDigit, Bool.and_eq_true, decide_eq_true_eq] at h
  have hlow : 48 ≤ c.toNat := h.1
  have hhigh : c.toNat ≤ 57 := h.2
  rw [← Char.ofNat_toNat c]
  exact hdigits c.toNat (by omega) hlow

theorem dropWhile_eq_self {p : Char → Bool} {cs : List Char} (h : ∀ c ∈ cs.head?, p c = false) :
    cs.dropWhile p = cs := by
  cases cs with
  | nil => rfl
  | cons c cs => exact List.dropWhile_cons_of_neg (by simp [h c rfl])

/-- Whitespace around a text that neither starts nor ends with whitespace is what `trim` takes away. -/
private theorem trim_surrounded (before s after : String) (hbefore : ∀ c ∈ before.toList, isWhitespace c)
    (hafter : ∀ c ∈ after.toList, isWhitespace c) (hfirst : ∀ c ∈ s.toList.head?, isWhitespace c = false)
    (hlast : ∀ c ∈ s.toList.getLast?, isWhitespace c = false) : trim (before ++ s ++ after) = s := by
  have hend (cs : List Char) (hcs : ∀ c ∈ cs.getLast?, isWhitespace c = false) :
      (cs ++ after.toList).rdropWhile isWhitespace = cs := by
    rw [List.rdropWhile, List.reverse_append, List.dropWhile_append_of_pos fun c hc => hafter c
      (List.mem_reverse.1 hc), dropWhile_eq_self (by simpa using hcs), List.reverse_reverse]
  rw [trim, String.toList_append, String.toList_append, List.append_assoc, List.dropWhile_append_of_pos hbefore]
  by_cases hs : s.toList = []
  · rw [hs, List.nil_append, List.dropWhile_eq_nil_iff.2 hafter]
    exact (congrArg String.ofList hs.symm).trans String.ofList_toList
  · obtain ⟨c, cs, hcons⟩ := List.exists_cons_of_ne_nil hs
    rw [dropWhile_eq_self (by rw [hcons] at hfirst ⊢; simpa using hfirst), hend _ hlast, String.ofList_toList]

theorem trim_eq_self {s : String} (hfirst : ∀ c ∈ s.toList.head?, isWhitespace c = false)
    (hlast : ∀ c ∈ s.toList.getLast?, isWhitespace c = false) : trim s = s := by
  simpa using trim_surrounded "" s "" (by simp) (by simp) hfirst hlast

theorem mem_of_mem_trim {s : String} {c : Char} (h : c ∈ (trim s).toList) : c ∈ s.toList := by
  rw [trim, String.toList_ofList] at h
  exact (List.dropWhile_suffix _).subset ((List.rdropWhile_prefix _ _).subset h)

/-- A trimmed text does not start with whitespace. -/
theorem isWhitespace_of_head_trim {s : String} {c : Char} {cs : List Char} (h : (trim s).toList = c :: cs) :
    isWhitespace c = false := by
  rw [trim, String.toList_ofList] at h
  obtain ⟨back, hback⟩ := List.rdropWhile_prefix isWhitespace (s.toList.dropWhile isWhitespace)
  rw [h, List.cons_append] at hback
  have hhead := List.head?_dropWhile_not isWhitespace s.toList
  rw [← hback] at hhead
  simpa using hhead

/-- No character of the text is whitespace. -/
def NoWhitespace (s : String) : Prop := s.toList.all fun c => !isWhitespace c

instance (s : String) : Decidable (NoWhitespace s) := inferInstanceAs (Decidable (_ = true))

theorem noWhitespace_iff {s : String} : NoWhitespace s ↔ ∀ c ∈ s.toList, isWhitespace c = false := by
  simp [NoWhitespace]

theorem NoWhitespace.append {s t : String} (hs : NoWhitespace s) (ht : NoWhitespace t) : NoWhitespace (s ++ t) := by
  rw [noWhitespace_iff] at hs ht ⊢
  intro c hc
  rw [String.toList_append, List.mem_append] at hc
  rcases hc with hc | hc
  · exact hs c hc
  · exact ht c hc

/-- Whitespace around a text without whitespace is what `trim` takes away. -/
theorem NoWhitespace.trim_surrounded {s : String} (h : NoWhitespace s) (before after : String)
    (hbefore : ∀ c ∈ before.toList, isWhitespace c) (hafter : ∀ c ∈ after.toList, isWhitespace c) :
    trim (before ++ s ++ after) = s := by
  rw [noWhitespace_iff] at h
  exact Text.trim_surrounded before s after hbefore hafter (fun c hc => h c (List.mem_of_mem_head? hc))
    (fun c hc => h c (List.mem_of_getLast? hc))

theorem NoWhitespace.trim {s : String} (h : NoWhitespace s) : trim s = s := by
  simpa using h.trim_surrounded "" "" (by simp) (by simp)

/-- What is left of a line without whitespace. -/
theorem NoWhitespace.trim_append_newline {s : String} (h : NoWhitespace s) : Text.trim (s ++ "\n") = s := by
  have hnewline : ∀ c ∈ "\n".toList, isWhitespace c := by
    intro c hc
    obtain rfl : c = '\n' := by simpa using hc
    decide
  simpa using h.trim_surrounded "" "\n" (by simp) hnewline

/-- The first line and the others. -/
private theorem lines_cons {line s : String} (hline : '\n' ∉ line.toList) :
    lines (line ++ "\n" ++ s) = stripCr line :: lines s := by
  have hne : split s '\n' ≠ [] := by
    rw [split]
    simp
  have hsplit : split (line ++ "\n" ++ s) '\n' = line :: split s '\n' :=
    split_of_append (by simp) hline
  rw [lines, hsplit, List.dropLast_cons_of_ne_nil hne, List.map_cons, List.getLast?_cons_of_ne_nil hne]
  rfl

/-- Nothing in the text ends a line. -/
def OneLine (s : String) : Prop := s.toList.all fun c => c != '\n' && c != '\r'

instance (s : String) : Decidable (OneLine s) := inferInstanceAs (Decidable (_ = true))

private theorem oneLine_iff {s : String} : OneLine s ↔ '\n' ∉ s.toList ∧ '\r' ∉ s.toList := by
  simp only [OneLine, List.all_eq_true, Bool.and_eq_true, bne_iff_ne, ne_eq]
  constructor
  · intro h
    exact ⟨fun hn => (h _ hn).1 rfl, fun hr => (h _ hr).2 rfl⟩
  · rintro ⟨hn, hr⟩ c hc
    exact ⟨fun heq => hn (heq ▸ hc), fun heq => hr (heq ▸ hc)⟩

theorem OneLine.append {s t : String} (hs : OneLine s) (ht : OneLine t) : OneLine (s ++ t) := by
  rw [oneLine_iff] at hs ht ⊢
  simp only [String.toList_append, List.mem_append, not_or]
  exact ⟨⟨hs.1, ht.1⟩, hs.2, ht.2⟩

theorem NoWhitespace.oneLine {s : String} (h : NoWhitespace s) : OneLine s := by
  rw [noWhitespace_iff] at h
  rw [oneLine_iff]
  exact ⟨fun hn => absurd (h _ hn) (by decide), fun hr => absurd (h _ hr) (by decide)⟩

/-- The lines of a text are those it was made of. -/
theorem lines_join {ls : List String} (h : ∀ line ∈ ls, OneLine line) :
    lines (String.join (ls.map (· ++ "\n"))) = ls := by
  induction ls with
  | nil => decide
  | cons line ls ih =>
    obtain ⟨hn, hr⟩ := oneLine_iff.1 (h line List.mem_cons_self)
    have hstrip : stripCr line = line := if_neg fun hlast => hr (List.mem_of_getLast? hlast)
    rw [List.map_cons, String.join_cons, lines_cons hn, hstrip, ih fun l hl => h l (List.mem_cons_of_mem line hl)]

private theorem toList_toString (n : Nat) : (toString n).toList = Nat.toDigits 10 n := by
  rw [Nat.toString_eq_ofList_toDigits, String.toList_ofList]

theorem isDigit_of_mem_toString {n : Nat} {c : Char} (h : c ∈ (toString n).toList) : c.isDigit := by
  rw [toList_toString] at h
  exact Nat.isDigit_of_mem_toDigits (by decide) (by decide) h

theorem noWhitespace_toString (n : Nat) : NoWhitespace (toString n) :=
  noWhitespace_iff.2 fun _ hc => isWhitespace_of_isDigit (isDigit_of_mem_toString hc)

theorem toString_ne_nil (n : Nat) : (toString n).toList ≠ [] := by
  rw [toList_toString]
  exact Nat.toDigits_ne_nil

theorem lt_of_parseUnsigned {size n : Nat} {s : String} (h : parseUnsigned size s = some n) : n < size := by
  have hdigits {cs : List Char} (h : parseDigits size cs = some n) : n < size := by
    unfold parseDigits at h
    split at h
    · rename_i hcs
      cases h
      exact hcs.2.2
    · cases h
  unfold parseUnsigned at h
  split at h
  · exact hdigits h
  · exact hdigits h

theorem parseUnsigned_toString {size n : Nat} (h : n < size) : parseUnsigned size (toString n) = some n := by
  have hdigit : ∀ c ∈ Nat.toDigits 10 n, c.isDigit :=
    fun c hc => Nat.isDigit_of_mem_toDigits (by decide) (by decide) hc
  have hparse : parseDigits size (Nat.toDigits 10 n) = some n := by
    unfold parseDigits
    rw [Nat.ofDigitChars_ten_toDigits, if_pos ⟨Nat.toDigits_ne_nil, List.all_eq_true.2 hdigit, h⟩]
  rw [parseUnsigned, Nat.toString_eq_ofList_toDigits, String.toList_ofList]
  split
  · rename_i c cs hplus
    exact absurd (hdigit '+' (hplus ▸ List.mem_cons_self)) (by decide)
  · exact hparse

end WarpSocks.Text
