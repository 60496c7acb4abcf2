import Mathlib.Data.List.GetD
import WarpSocks.IpLiteral

/-!
# The literals that `Display` writes

The text of an address is read back as the address (`parse_display`).  The readers stop where the text ends, also
with something behind it that is no character of a literal.
-/

namespace WarpSocks.IpText

/-! ### Numbers -/

/-- The digits of a number. -/
def digitBytes (radix n : Nat) : List UInt8 := (Nat.toDigits radix n).map fun c => UInt8.ofNat c.val.toNat

/-- Nothing that is a digit is at the front. -/
def NoDigit (radix : Nat) (rest : List UInt8) : Prop := ∀ b ∈ rest.head?, toDigit radix b = none

theorem forall_head_cons {P : UInt8 → Prop} {b : UInt8} (h : P b) (rest : List UInt8) :
    ∀ c ∈ (b :: rest).head?, P c := by
  intro c hc
  obtain rfl : b = c := by simpa using hc
  exact h

private theorem toDigit_digitChar {radix d : Nat} (hr : radix ≤ 16) (hd : d < radix) :
    toDigit radix (UInt8.ofNat (Nat.digitChar d).val.toNat) = some d := by
  have hall : ∀ d < 16, toDigit 16 (UInt8.ofNat (Nat.digitChar d).val.toNat) = some d := by decide
  have h := hall d (by omega)
  unfold toDigit at h ⊢
  dsimp only at h ⊢
  rw [Option.filter_eq_some_iff] at h ⊢
  exact ⟨h.1, by simpa using hd⟩

/-- The digits are one digit, or those of a smaller number and one more. -/
private theorem digits_induction {radix : Nat} (hr : 1 < radix) {P : Nat → Prop} (hone : ∀ d < radix, P d)
    (hmore : ∀ n, radix ≤ n → P (n / radix) → P n) (n : Nat) : P n := by
  induction n using Nat.strong_induction_on with
  | _ n ih =>
    by_cases h : n < radix
    · exact hone n h
    · exact hmore n (by omega) (ih _ (Nat.div_lt_self (by omega) hr))

private theorem digitBytes_of_lt {radix d : Nat} (h : d < radix) :
    digitBytes radix d = [UInt8.ofNat (Nat.digitChar d).val.toNat] := by
  rw [digitBytes, Nat.toDigits_of_lt_base h, List.map_singleton]

private theorem digitBytes_of_le {radix n : Nat} (hr : 1 < radix) (h : radix ≤ n) :
    digitBytes radix n = digitBytes radix (n / radix) ++ [UInt8.ofNat (Nat.digitChar (n % radix)).val.toNat] := by
  rw [digitBytes, Nat.toDigits_of_base_le hr h, List.map_append, List.map_singleton, digitBytes]

private theorem length_digitBytes_ten {n : Nat} (h : n < 256) : (digitBytes 10 n).length ≤ 3 := by
  rw [digitBytes, List.length_map, Nat.length_toDigits_le_iff (by decide) (by decide)]
  omega

private theorem length_digitBytes_sixteen {n : Nat} (h : n < 65536) : (digitBytes 16 n).length ≤ 4 := by
  rw [digitBytes, List.length_map, Nat.length_toDigits_le_iff (by decide) (by decide)]
  omega

section
variable {radix : Nat} (hr : 1 < radix) (hr' : radix ≤ 16)
include hr hr'

private theorem isSome_of_mem_digitBytes (n : Nat) : ∀ b ∈ digitBytes radix n, (toDigit radix b).isSome := by
  induction n using digits_induction hr with
  | hone d hd =>
    intro b hb
    rw [digitBytes_of_lt hd, List.mem_singleton] at hb
    rw [hb, toDigit_digitChar hr' hd, Option.isSome_some]
  | hmore n hn ih =>
    intro b hb
    rw [digitBytes_of_le hr hn, List.mem_append, List.mem_singleton] at hb
    rcases hb with hb | rfl
    · exact ih b hb
    · rw [toDigit_digitChar hr' (Nat.mod_lt n (by omega)), Option.isSome_some]

/-- The digits spell the number. -/
private theorem foldl_digitBytes (n : Nat) :
    (digitBytes radix n).foldl (fun m c => m * radix + (toDigit radix c).getD 0) 0 = n := by
  induction n using digits_induction hr with
  | hone d hd => rw [digitBytes_of_lt hd, List.foldl_cons, List.foldl_nil, toDigit_digitChar hr' hd,
    Option.getD_some]; omega
  | hmore n hn ih =>
    rw [digitBytes_of_le hr hn, List.foldl_append, ih, List.foldl_cons, List.foldl_nil,
      toDigit_digitChar hr' (Nat.mod_lt n (by omega)), Option.getD_some]
    exact Nat.div_add_mod' n radix

/-- Only zero starts with a zero. -/
private theorem digitBytes_leading {n : Nat} (h : (digitBytes radix n).head? = some 48) : n = 0 := by
  have hzero : toDigit radix 48 = some 0 := toDigit_digitChar (d := 0) hr' (by omega)
  induction n using digits_induction hr with
  | hone d hd =>
    rw [digitBytes_of_lt hd, List.head?_cons, Option.some.injEq] at h
    have hdigit := toDigit_digitChar hr' hd
    rw [h, hzero] at hdigit
    exact (Option.some.inj hdigit).symm
  | hmore n hn ih =>
    have hne : digitBytes radix (n / radix) ≠ [] := by simp [digitBytes]
    rw [digitBytes_of_le hr hn, List.head?_append_of_ne_nil _ hne] at h
    have hpos := Nat.div_pos hn (by omega)
    rw [ih h] at hpos
    exact absurd hpos (Nat.lt_irrefl 0)

/-- A number is read up to what is no digit. -/
theorem readNumber_digitBytes {n maxDigits bound : Nat} (hmax : (digitBytes radix n).length ≤ maxDigits)
    (hbound : n < bound) (allowZeroPrefix : Bool) {rest : List UInt8} (hrest : NoDigit radix rest) :
    readNumber radix maxDigits bound allowZeroPrefix (digitBytes radix n ++ rest) = some (n, rest) := by
  have hne : digitBytes radix n ≠ [] := by simp [digitBytes]
  have htake : (digitBytes radix n ++ rest).takeWhile (fun c => (toDigit radix c).isSome) = digitBytes radix n := by
    rw [List.takeWhile_append_of_pos (isSome_of_mem_digitBytes hr hr' n)]
    cases rest with
    | nil => rw [List.takeWhile_nil, List.append_nil]
    | cons b rest => rw [List.takeWhile_cons_of_neg (by simp [hrest b rfl]), List.append_nil]
  have hzero : (digitBytes radix n).head? = some 48 → (digitBytes radix n).length = 1 := by
    intro h
    rw [digitBytes_leading hr hr' h, digitBytes_of_lt (by omega), List.length_singleton]
  have hpos := List.length_pos_iff.2 hne
  unfold readNumber
  dsimp only
  rw [htake, foldl_digitBytes hr hr', List.head?_append_of_ne_nil _ hne, List.drop_left, if_neg (by omega), if_neg ?_,
    if_pos hbound]
  simp only [Bool.and_eq_true, beq_iff_eq, decide_eq_true_eq]
  rintro ⟨⟨-, hhead⟩, hlt⟩
  rw [hzero hhead] at hlt
  exact absurd hlt (by omega)

end

private theorem asBytes_digits {radix : Nat} (hr : 1 < radix) (hr' : radix ≤ 16) (n : Nat) :
    Text.asBytes (.ofList (Nat.toDigits radix n)) = digitBytes radix n := by
  refine Text.asBytes_of_lt ?_
  have hall : ∀ d < 16, (Nat.digitChar d).val.toNat < 128 := by decide
  induction n using digits_induction hr with
  | hone d hd =>
    intro c hc
    rw [Nat.toDigits_of_lt_base hd, List.mem_singleton] at hc
    rw [hc]
    exact hall d (by omega)
  | hmore n hn ih =>
    intro c hc
    have hmod := Nat.mod_lt n (show 0 < radix by omega)
    rw [Nat.toDigits_of_base_le hr hn, List.mem_append, List.mem_singleton] at hc
    rcases hc with hc | rfl
    · exact ih c hc
    · exact hall _ (by omega)

theorem asBytes_toString (n : Nat) : Text.asBytes (toString n) = digitBytes 10 n := by
  rw [Nat.toString_eq_ofList_toDigits, asBytes_digits (by decide) (by decide)]

private theorem asBytes_hex (n : Nat) : Text.asBytes (hex n) = digitBytes 16 n :=
  asBytes_digits (by decide) (by decide) n

private theorem readSeparator_zero {α : Type} (sep : UInt8) (inner : List UInt8 → Option (α × List UInt8))
    (p : List UInt8) :
    readSeparator sep 0 inner p = inner p := by simp [readSeparator]

private theorem readSeparator_succ {α : Type} (sep : UInt8) (index : Nat)
    (inner : List UInt8 → Option (α × List UInt8))
    (p : List UInt8) : readSeparator sep (index + 1) inner (sep :: p) = inner p := by simp [readSeparator]

private theorem readSeparator_of_ne {α : Type} {sep : UInt8} (index : Nat)
    (inner : List UInt8 → Option (α × List UInt8))
    {p : List UInt8} (h : ∀ b ∈ p.head?, b ≠ sep) : readSeparator sep (index + 1) inner p = none := by
  cases p with
  | nil => simp [readSeparator]
  | cons b p => simp [readSeparator, h b rfl]

/-! ### IPv4 -/

private theorem readOctet_digitBytes (index : Nat) (b : UInt8) {rest : List UInt8} (hrest : NoDigit 10 rest) :
    readOctet (index + 1) (46 :: (digitBytes 10 b.toNat ++ rest)) = some (b.toNat, rest) := by
  have hlt : b.toNat < 256 := b.toNat_lt
  rw [readOctet, readSeparator_succ]
  exact readNumber_digitBytes (by decide) (by decide) (length_digitBytes_ten hlt) hlt false hrest

private theorem asBytes_showV4 (a b c d : UInt8) :
    Text.asBytes (showV4 [a, b, c, d]) = digitBytes 10 a.toNat ++ 46 :: (digitBytes 10 b.toNat ++
      46 :: (digitBytes 10 c.toNat ++ 46 :: digitBytes 10 d.toNat)) := by
  have hdot : Text.asBytes "." = [46] := by decide
  rw [showV4, Text.asBytes_intercalate, hdot]
  simp only [List.map_cons, List.map_nil, asBytes_toString]
  simp

/-- An IPv4 address is read up to what is no digit. -/
theorem readIpv4Addr_showV4 (octets : Octets 4) {rest : List UInt8} (hrest : NoDigit 10 rest) :
    readIpv4Addr (Text.asBytes (showV4 octets.val) ++ rest) = some (octets, rest) := by
  obtain ⟨bytes, hbytes⟩ := octets
  obtain ⟨a, b, c, d, rfl⟩ := List.length_eq_four.1 hbytes
  have hlt : a.toNat < 256 := a.toNat_lt
  have hdot (rest : List UInt8) : NoDigit 10 (46 :: rest) := forall_head_cons (by decide) rest
  have hfirst (rest : List UInt8) : readOctet 0 (digitBytes 10 a.toNat ++ 46 :: rest) =
      some (a.toNat, 46 :: rest) := by
    rw [readOctet, readSeparator_zero]
    exact readNumber_digitBytes (by decide) (by decide) (length_digitBytes_ten hlt) hlt false
      (hdot rest)
  rw [asBytes_showV4, readIpv4Addr_eq]
  simp only [List.append_assoc, List.cons_append]
  rw [hfirst, Option.bind_some, readOctet_digitBytes 0 b (hdot _), Option.bind_some,
    readOctet_digitBytes 1 c (hdot _), Option.bind_some, readOctet_digitBytes 2 d hrest, Option.bind_some]
  simp only [List.map_cons, List.map_nil, UInt8.ofNat_toNat]

/-- Without a point behind its first number, a text does not start with an IPv4 address. -/
private theorem readIpv4Addr_of_no_point {p : List UInt8}
    (h : ∀ b ∈ (p.dropWhile fun c => (toDigit 10 c).isSome).head?, b ≠ 46) : readIpv4Addr p = none := by
  rw [readIpv4Addr_eq, Option.bind_eq_none_iff]
  intro a ha
  rw [readOctet, readSeparator_zero] at ha
  have hsecond : readOctet 1 a.2 = none := by
    rw [rest_of_readNumber ha]
    exact readSeparator_of_ne 0 _ h
  rw [hsecond, Option.bind_none]

/-! ### Groups -/

/-- The text of the groups, the first of which has the index. -/
def groupBytes : Nat → List Nat → List UInt8
  | _, [] => []
  | index, g :: gs => (if index = 0 then [] else [58]) ++ (digitBytes 16 g ++ groupBytes (index + 1) gs)

/-- Neither a digit nor a point is at the front. -/
def EndsGroup (rest : List UInt8) : Prop := ∀ b ∈ rest.head?, toDigit 16 b = none ∧ isV4Byte b = false

/-- No group follows: something that is no character of a literal, or two colons. -/
def Stops (rest : List UInt8) : Prop := (∀ b ∈ rest.head?, isV6Byte b = false) ∨ ∃ q, rest = 58 :: 58 :: q

private theorem endsGroup_colon (p : List UInt8) : EndsGroup (58 :: p) := forall_head_cons (by decide) p

private theorem Stops.endsGroup {rest : List UInt8} (h : Stops rest) : EndsGroup rest := by
  rcases h with h | ⟨q, rfl⟩
  · intro b hb
    exact Text.forall_byte (P := fun b => isV6Byte b = false → toDigit 16 b = none ∧ isV4Byte b = false)
      (by decide +kernel) b (h b hb)
  · exact endsGroup_colon _

/-- A group that no point follows does not start an IPv4 address. -/
theorem readIpv4Addr_group {rest : List UInt8} (hrest : EndsGroup rest) (digits : List UInt8)
    (hdigits : ∀ b ∈ digits, (toDigit 16 b).isSome) : readIpv4Addr (digits ++ rest) = none := by
  refine readIpv4Addr_of_no_point ?_
  induction digits with
  | nil =>
    cases rest with
    | nil => simp
    | cons b rest =>
      have hb := (hrest b rfl).2
      rw [isV4Byte, Bool.or_eq_false_iff] at hb
      rw [List.nil_append, List.dropWhile_cons_of_neg (by simp [hb.1])]
      simpa using hb.2
  | cons d digits ih =>
    have hd := hdigits d List.mem_cons_self
    rw [List.cons_append, List.dropWhile_cons]
    split
    · exact ih fun b hb => hdigits b (List.mem_cons_of_mem d hb)
    · have hne : d ≠ 46 := by
        rintro rfl
        exact absurd hd (by decide)
      simpa using hne

private theorem readNumber_of_noDigit {radix : Nat} (maxDigits bound : Nat) (allowZeroPrefix : Bool) {p : List UInt8}
    (h : NoDigit radix p) : readNumber radix maxDigits bound allowZeroPrefix p = none := by
  have htake : p.takeWhile (fun c => (toDigit radix c).isSome) = [] := by
    cases p with
    | nil => rfl
    | cons b p => rw [List.takeWhile_cons_of_neg (by simp [h b rfl])]
  unfold readNumber
  dsimp only
  rw [htake, if_pos (.inl rfl)]

private theorem readSeparator_of_stops {α : Type} {inner : List UInt8 → Option (α × List UInt8)}
    (hinner : ∀ p, EndsGroup p → inner p = none) {rest : List UInt8} (h : Stops rest) (index : Nat) :
    readSeparator 58 index inner rest = none := by
  cases index with
  | zero => rw [readSeparator_zero, hinner rest h.endsGroup]
  | succ index =>
    rcases h with h | ⟨q, rfl⟩
    · refine readSeparator_of_ne index inner fun b hb => ?_
      rintro rfl
      exact absurd (h 58 hb) (by decide)
    · rw [readSeparator_succ, hinner _ (endsGroup_colon q)]

private theorem readGroups_of_stops {rest : List UInt8} (h : Stops rest) (index room : Nat) :
    readGroups index room rest = ([], false, rest) := by
  cases room with
  | zero => rfl
  | succ room =>
    have hv4 : readSeparator 58 index readIpv4Addr rest = none :=
      readSeparator_of_stops (fun p hp => readIpv4Addr_group hp [] (by simp)) h index
    have hgroup : readSeparator 58 index (readNumber 16 4 65536 true) rest = none :=
      readSeparator_of_stops (fun p hp => readNumber_of_noDigit 4 65536 true fun b hb => (hp b hb).1) h index
    rw [readGroups, hv4, ite_self]
    dsimp only
    rw [hgroup]

private theorem readSeparator_sep {α : Type} (sep : UInt8) (index : Nat)
    (inner : List UInt8 → Option (α × List UInt8))
    (p : List UInt8) : readSeparator sep index inner ((if index = 0 then [] else [sep]) ++ p) = inner p := by
  cases index with
  | zero => exact readSeparator_zero sep inner p
  | succ index => exact readSeparator_succ sep index inner p

/-- One group is read. -/
private theorem readGroups_group {g : Nat} (hg : g < 65536) {rest : List UInt8} (hrest : EndsGroup rest)
    (index room : Nat) :
    readGroups index (room + 1) ((if index = 0 then [] else [58]) ++ (digitBytes 16 g ++ rest)) =
      (g :: (readGroups (index + 1) room rest).1, (readGroups (index + 1) room rest).2) := by
  have hnumber : readNumber 16 4 65536 true (digitBytes 16 g ++ rest) = some (g, rest) :=
    readNumber_digitBytes (by decide) (by decide) (length_digitBytes_sixteen hg) hg true
      fun b hb => (hrest b hb).1
  rw [readGroups, readSeparator_sep, readIpv4Addr_group hrest _
    (isSome_of_mem_digitBytes (by decide) (by decide) g), ite_self]
  dsimp only
  rw [readSeparator_sep, hnumber]

/-- Groups are read up to where no other follows. -/
private theorem readGroups_groupBytes {gs : List Nat} (hgs : ∀ g ∈ gs, g < 65536) {rest : List UInt8}
    (hrest : Stops rest) {room : Nat} (hroom : gs.length ≤ room) (index : Nat) :
    readGroups index room (groupBytes index gs ++ rest) = (gs, false, rest) := by
  induction gs generalizing index room with
  | nil => exact readGroups_of_stops hrest index room
  | cons g gs ih =>
    obtain ⟨room, rfl⟩ : ∃ r, room = r + 1 := ⟨room - 1, by rw [List.length_cons] at hroom; omega⟩
    have hnext : EndsGroup (groupBytes (index + 1) gs ++ rest) := by
      cases gs with
      | nil => exact hrest.endsGroup
      | cons g' gs => exact endsGroup_colon _
    rw [groupBytes, List.append_assoc, List.append_assoc, readGroups_group (hgs g List.mem_cons_self) hnext,
      ih (fun g' hg' => hgs g' (List.mem_cons_of_mem g hg')) (by simpa using hroom)]

private theorem asBytes_intercalate_hex (gs : List Nat) :
    Text.asBytes (":".intercalate (gs.map hex)) = groupBytes 0 gs := by
  have hcolon : Text.asBytes ":" = [58] := by decide
  have hcons (g index : Nat) (gs : List Nat) : [58].intercalate ((g :: gs).map (digitBytes 16)) =
      digitBytes 16 g ++ groupBytes (index + 1) gs := by
    induction gs generalizing g index with
    | nil => simp [groupBytes]
    | cons g' gs ih =>
      rw [List.map_cons, List.map_cons, List.intercalate_cons_cons, ← List.map_cons, ih g' (index + 1), groupBytes,
        if_neg (Nat.succ_ne_zero index), List.append_assoc]
  have hgroups : (gs.map hex).map Text.asBytes = gs.map (digitBytes 16) := by
    rw [List.map_map]
    exact List.map_congr_left fun g _ => asBytes_hex g
  rw [Text.asBytes_intercalate, hcolon, hgroups]
  cases gs with
  | nil => rfl
  | cons g gs => exact hcons g 0 gs

/-! ### IPv6 -/

private theorem lt_of_mem_groupsOfOctets {octets : Octets 16} {g : Nat} (h : g ∈ groupsOfOctets octets) :
    g < 65536 := by
  rw [groupsOfOctets, List.mem_map] at h
  obtain ⟨i, -, rfl⟩ := h
  have hhi := (octets.val.getD (2 * i) 0).toNat_lt
  have hlo := (octets.val.getD (2 * i + 1) 0).toNat_lt
  omega

private theorem length_groupsOfOctets (octets : Octets 16) : (groupsOfOctets octets).length = 8 := by
  simp [groupsOfOctets]

private theorem octetsOfGroups_groupsOfOctets (octets : Octets 16) :
    octetsOfGroups (groupsOfOctets octets) = octets := by
  apply Subtype.ext
  refine List.ext_getElem (by simp [octetsOfGroups, octets.property]) fun i hi hi' => ?_
  have hlt : i < 16 := octets.property ▸ hi'
  have hgroup : (groupsOfOctets octets).getD (i / 2) 0 =
      (octets.val.getD (2 * (i / 2)) 0).toNat * 256 + (octets.val.getD (2 * (i / 2) + 1) 0).toNat := by
    rw [groupsOfOctets, List.getD_eq_getElem _ _ (by simp; omega), List.getElem_map, List.getElem_range]
  have hlo := (octets.val.getD (2 * (i / 2) + 1) 0).toNat_lt
  simp only [octetsOfGroups, List.getElem_map, List.getElem_range]
  rw [hgroup, ← UInt8.toNat_inj, UInt8.toNat_ofNat']
  by_cases heven : i % 2 = 0
  · have hi₂ : 2 * (i / 2) = i := by omega
    have hhi := octets.val[i].toNat_lt
    rw [if_pos heven, hi₂, List.getD_eq_getElem _ _ hi']
    rw [hi₂] at hlo
    omega
  · have hi₂ : 2 * (i / 2) + 1 = i := by omega
    rw [if_neg heven, hi₂, List.getD_eq_getElem _ _ hi']
    rw [hi₂, List.getD_eq_getElem _ _ hi'] at hlo
    omega

/-- The span has zeros only. -/
def Zeros (gs : List Nat) (span : Nat × Nat) : Prop := (gs.drop span.1).take span.2 = List.replicate span.2 0

/-- One more zero behind a span. -/
private theorem Zeros.extend {gs : List Nat} {start len : Nat} (h : Zeros gs (start, len))
    (hnext : gs[start + len]? = some 0) :
    Zeros gs (start, len + 1) := by
  have hspan : (gs.drop start).take len = List.replicate len 0 := h
  have hmore : (gs.drop start).take (len + 1) = List.replicate (len + 1) 0 := by
    rw [List.take_add_one, List.getElem?_drop, hnext, hspan, List.replicate_succ', Option.toList_some]
  exact hmore

/-- The current span ends where the search is, and both spans have zeros only. -/
private theorem zeros_longestZeros (front : List Nat) {all gs : List Nat} (hall : all = front ++ gs)
    {current longest : Nat × Nat}
    (hcurrent : current.2 ≠ 0 → current.1 + current.2 = front.length ∧ Zeros all current)
    (hlongest : Zeros all longest) :
    Zeros all (longestZeros front.length gs current longest) := by
  induction gs generalizing front current longest with
  | nil => exact hlongest
  | cons g gs ih =>
    obtain ⟨start, len⟩ := current
    replace ih := @ih (front ++ [g])
    rw [List.length_append, List.length_singleton] at ih
    replace ih := @ih (by rw [hall, List.append_assoc, List.singleton_append])
    unfold longestZeros
    by_cases hg : g = 0
    · -- the span starts here if there was none
      have hspan : (if len = 0 then front.length else start) + len = front.length ∧
          Zeros all (if len = 0 then front.length else start, len) := by
        by_cases hlen : len = 0
        · subst hlen
          exact ⟨rfl, by simp [Zeros]⟩
        · rw [if_neg hlen]
          exact hcurrent hlen
      have hzeros := hspan.2.extend (by rw [hspan.1, hall, hg]; simp)
      rw [if_pos hg]
      dsimp only
      refine ih (fun _ => ⟨by dsimp only; omega, hzeros⟩) ?_
      split
      · exact hzeros
      · exact hlongest
    · rw [if_neg hg]
      exact ih (fun h => absurd rfl h) hlongest

private theorem readIpv6Addr_full {gs : List Nat} (hlen : gs.length = 8) (hgs : ∀ g ∈ gs, g < 65536)
    {rest : List UInt8} (hrest : ∀ b ∈ rest.head?, isV6Byte b = false) :
    readIpv6Addr (groupBytes 0 gs ++ rest) = some (octetsOfGroups gs, rest) := by
  rw [readIpv6Addr, readGroups_groupBytes hgs (.inl hrest) (by omega)]
  dsimp only
  rw [if_pos hlen]

/-- Two colons stand for the groups that are missing. -/
private theorem readIpv6Addr_colons {p q rest : List UInt8} {head tail : List Nat} {ipv4 : Bool}
    (hhead : readGroups 0 8 p = (head, false, 58 :: 58 :: q)) (hlen : head.length ≠ 8)
    (htail : readGroups 0 (8 - (head.length + 1)) q = (tail, ipv4, rest)) :
    readIpv6Addr p = some (octetsOfGroups (head ++ List.replicate (8 - head.length - tail.length) 0 ++ tail),
      rest) := by
  rw [readIpv6Addr, hhead]
  dsimp only
  rw [if_neg hlen, if_neg Bool.false_ne_true]
  split
  · rename_i q' hq
    rw [List.cons.injEq, List.cons.injEq] at hq
    rw [← hq.2.2, htail]
  · rename_i hne
    exact absurd rfl (hne q)

/-- A span of zeros is left out. -/
private theorem readIpv6Addr_compressed {gs : List Nat} (hlen : gs.length = 8) (hgs : ∀ g ∈ gs, g < 65536)
    {start len : Nat}
    (hzeros : Zeros gs (start, len)) (hpos : 1 < len) {rest : List UInt8}
    (hrest : ∀ b ∈ rest.head?, isV6Byte b = false) :
    readIpv6Addr (groupBytes 0 (gs.take start) ++ 58 :: 58 :: (groupBytes 0 (gs.drop (start + len)) ++ rest)) =
      some (octetsOfGroups gs, rest) := by
  have hspan : (gs.drop start).take len = List.replicate len 0 := hzeros
  have hle : start + len ≤ 8 := by
    have hlength := congrArg List.length hspan
    rw [List.length_take, List.length_drop, List.length_replicate] at hlength
    omega
  have htake : (gs.take start).length = start := by rw [List.length_take]; omega
  have hdrop : (gs.drop (start + len)).length = 8 - start - len := by rw [List.length_drop]; omega
  have hgroups : gs.take start ++ List.replicate len 0 ++ gs.drop (start + len) = gs := by
    rw [← hspan, List.append_assoc, ← List.drop_drop, List.take_append_drop, List.take_append_drop]
  have hhead := readGroups_groupBytes (fun g hg => hgs g (List.mem_of_mem_take hg))
    (.inr ⟨groupBytes 0 (gs.drop (start + len)) ++ rest, rfl⟩) (show (gs.take start).length ≤ 8 by omega) 0
  have htail := readGroups_groupBytes (fun g hg => hgs g (List.mem_of_mem_drop hg)) (.inl hrest)
    (show (gs.drop (start + len)).length ≤ 8 - ((gs.take start).length + 1) by omega) 0
  rw [readIpv6Addr_colons hhead (by omega) htail, htake, hdrop,
    show 8 - start - (8 - start - len) = len by omega, hgroups]

/-- The last two groups in decimal. -/
private theorem readIpv6Addr_mapped {octets : Octets 16}
    (h : (groupsOfOctets octets).take 6 = [0, 0, 0, 0, 0, 0xffff]) {rest : List UInt8} (hrest : NoDigit 10 rest) :
    readIpv6Addr (58 :: 58 :: (digitBytes 16 0xffff ++ 58 :: (Text.asBytes (showV4 (octets.val.drop 12)) ++ rest))) =
      some (octets, rest) := by
  have hlen : (octets.val.drop 12).length = 4 := by rw [List.length_drop, octets.property]
  have hv4 : readIpv4Addr (Text.asBytes (showV4 (octets.val.drop 12)) ++ rest) =
      some (⟨octets.val.drop 12, hlen⟩, rest) :=
    readIpv4Addr_showV4 ⟨octets.val.drop 12, hlen⟩ hrest
  have hoctet (i : Nat) : ((octets.val.drop 12).map UInt8.toNat).getD i 0 = (octets.val.getD (12 + i) 0).toNat := by
    rw [← UInt8.toNat_zero, List.getD_map, List.getD_eq_getElem?_getD, List.getElem?_drop, List.getD_eq_getElem?_getD]
  have hlast : readGroups 1 6 (58 :: (Text.asBytes (showV4 (octets.val.drop 12)) ++ rest)) =
      ((groupsOfOctets octets).drop 6, true, rest) := by
    rw [readGroups, if_pos (by decide), readSeparator_succ, hv4]
    dsimp only
    rw [hoctet, hoctet, hoctet, hoctet]
    rfl
  have hhead :=
    readGroups_of_stops (.inr ⟨digitBytes 16 0xffff ++ 58 :: (Text.asBytes (showV4 (octets.val.drop 12)) ++ rest),
    rfl⟩) 0 8
  have htail : readGroups 0 7 (digitBytes 16 0xffff ++ 58 :: (Text.asBytes (showV4 (octets.val.drop 12)) ++ rest)) =
      (0xffff :: (groupsOfOctets octets).drop 6, true, rest) := by
    have hgroup := readGroups_group (g := 0xffff) (by decide)
      (endsGroup_colon (Text.asBytes (showV4 (octets.val.drop 12)) ++ rest)) 0 6
    rw [if_pos rfl, List.nil_append] at hgroup
    rw [hgroup, hlast]
  have hgroups : List.replicate 5 0 ++ 0xffff :: (groupsOfOctets octets).drop 6 = groupsOfOctets octets := by
    conv => rhs; rw [← List.take_append_drop 6 (groupsOfOctets octets), h]
    rfl
  rw [readIpv6Addr_colons hhead (by decide) htail, List.length_cons, List.length_drop, length_groupsOfOctets,
    List.nil_append, List.length_nil, hgroups, octetsOfGroups_groupsOfOctets]

/-! ### Addresses -/

/-- An IPv6 address is read up to what is no character of a literal. -/
theorem readIpv6Addr_display (octets : Octets 16) {rest : List UInt8} (hrest : ∀ b ∈ rest.head?, isV6Byte b = false) :
    readIpv6Addr (Text.asBytes (display (.v6 octets)) ++ rest) = some (octets, rest) := by
  have hlen := length_groupsOfOctets octets
  have hgs : ∀ g ∈ groupsOfOctets octets, g < 65536 := fun g hg => lt_of_mem_groupsOfOctets hg
  have hcolons : Text.asBytes "::" = [58, 58] := by decide
  have hzeros : Zeros (groupsOfOctets octets) (longestZeros 0 (groupsOfOctets octets) (0, 0) (0, 0)) :=
    zeros_longestZeros [] rfl (fun h => absurd rfl h) rfl
  unfold display
  dsimp only
  generalize longestZeros 0 (groupsOfOctets octets) (0, 0) (0, 0) = span at hzeros ⊢
  obtain ⟨start, len⟩ := span
  split
  · rename_i hmapped
    have hfront : Text.asBytes "::ffff:" = 58 :: 58 :: (digitBytes 16 0xffff ++ [58]) := by decide
    have hdigit : NoDigit 10 rest := by
      intro b hb
      exact Text.forall_byte (P := fun b => isV6Byte b = false → toDigit 10 b = none) (by decide +kernel) b
        (hrest b hb)
    rw [← readIpv6Addr_mapped hmapped hdigit, Text.asBytes_append, hfront]
    simp
  · split
    · rename_i hpos
      have hread := readIpv6Addr_compressed hlen hgs hzeros hpos hrest
      rw [octetsOfGroups_groupsOfOctets] at hread
      rw [← hread, Text.asBytes_append, Text.asBytes_append, asBytes_intercalate_hex, asBytes_intercalate_hex,
        hcolons]
      simp
    · rw [asBytes_intercalate_hex, readIpv6Addr_full hlen hgs hrest, octetsOfGroups_groupsOfOctets]

/-- The first group, if there is one, has a colon behind it. -/
private theorem display_v6_front (octets : Octets 16) : ∃ digits tail, (∀ b ∈ digits, (toDigit 16 b).isSome) ∧
    Text.asBytes (display (.v6 octets)) = digits ++ 58 :: tail := by
  have hlen := length_groupsOfOctets octets
  have hdigits (g : Nat) : ∀ b ∈ digitBytes 16 g, (toDigit 16 b).isSome :=
    isSome_of_mem_digitBytes (by decide) (by decide) g
  have hnone : ∀ b ∈ ([] : List UInt8), (toDigit 16 b).isSome := by simp
  have hcolons : Text.asBytes "::" = [58, 58] := by decide
  unfold display
  dsimp only
  generalize longestZeros 0 (groupsOfOctets octets) (0, 0) (0, 0) = span
  obtain ⟨start, len⟩ := span
  split
  · have hfront : Text.asBytes "::ffff:" = 58 :: 58 :: (digitBytes 16 0xffff ++ [58]) := by decide
    exact ⟨[], _, hnone, by rw [Text.asBytes_append, hfront]; rfl⟩
  · split
    · rw [Text.asBytes_append, Text.asBytes_append, asBytes_intercalate_hex, asBytes_intercalate_hex, hcolons]
      cases (groupsOfOctets octets).take start with
      | nil => exact ⟨[], _, hnone, rfl⟩
      | cons g gs =>
        cases gs with
        | nil => exact ⟨digitBytes 16 g, _, hdigits g, by simp [groupBytes]; rfl⟩
        | cons g' gs => exact ⟨digitBytes 16 g, _, hdigits g, by simp [groupBytes]; rfl⟩
    · rw [asBytes_intercalate_hex]
      match groupsOfOctets octets, hlen with
      | g :: g' :: gs, _ => exact ⟨digitBytes 16 g, _, hdigits g, by simp [groupBytes]; rfl⟩

/-- What is displayed is read back. -/
theorem parse_display (ip : IpAddr) : parse (display ip) = some ip := by
  have hbytes : (display ip).toUTF8.data.toList = Text.asBytes (display ip) ++ [] := (List.append_nil _).symm
  rw [parse, hbytes, readIpAddr]
  cases ip with
  | v4 octets =>
    rw [show display (.v4 octets) = showV4 octets.val from rfl, readIpv4Addr_showV4 octets (by simp [NoDigit])]
  | v6 octets =>
    obtain ⟨digits, tail, hdigits, hfront⟩ := display_v6_front octets
    have hv4 : readIpv4Addr (Text.asBytes (display (.v6 octets)) ++ []) = none := by
      rw [List.append_nil, hfront]
      exact readIpv4Addr_group (endsGroup_colon tail) digits hdigits
    rw [hv4, readIpv6Addr_display octets (by simp)]
    rfl

theorem noWhitespace_display (ip : IpAddr) : Text.NoWhitespace (display ip) :=
  noWhitespace_of_parse (parse_display ip)

theorem slash_notMem_display (ip : IpAddr) : '/' ∉ (display ip).toList := by
  intro hc
  exact absurd (isV6Byte_of_mem (parse_display ip) _ ((Text.mem_asBytes_iff (by decide)).2 hc)) (by decide)

end WarpSocks.IpText
