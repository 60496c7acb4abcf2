import WarpSocks.Host
import WarpSocks.Text

/-!
# The characters of an IP literal

Each reader takes a front of the text with the characters of a literal only (`Takes`).  So a text that is the
literal of an IPv4 address has digits and points, and one of an IPv6 address has hexadecimal digits, points and
colons, one colon at least (`colon_mem_of_parse_v6`).
-/

namespace WarpSocks.IpText

/-- The characters of the literals of IPv4 addresses. -/
def isV4Byte (b : UInt8) : Bool := (toDigit 10 b).isSome || b == 46

/-- The characters of the literals of IPv6 addresses. -/
def isV6Byte (b : UInt8) : Bool := (toDigit 16 b).isSome || b == 46 || b == 58

/-- The reader takes bytes that satisfy `A` from the front. -/
def Takes {α : Type} (A : UInt8 → Bool) (read : List UInt8 → Option (α × List UInt8)) : Prop :=
  ∀ p x rest, read p = some (x, rest) → ∃ front, p = front ++ rest ∧ ∀ b ∈ front, A b

private theorem isV6Byte_of_isV4Byte {b : UInt8} (h : isV4Byte b) : isV6Byte b :=
  Text.forall_byte (P := fun b => isV4Byte b → isV6Byte b) (by decide +kernel) b h

/-- All digits at the front are taken. -/
theorem rest_of_readNumber {radix maxDigits bound n : Nat} {allowZeroPrefix : Bool} {p rest : List UInt8}
    (h : readNumber radix maxDigits bound allowZeroPrefix p = some (n, rest)) :
    rest = p.dropWhile fun c => (toDigit radix c).isSome := by
  have hdrop : p.drop (p.takeWhile fun c => (toDigit radix c).isSome).length =
      p.dropWhile fun c => (toDigit radix c).isSome := by
    conv => lhs; arg 2; rw [← List.takeWhile_append_dropWhile (p := fun c => (toDigit radix c).isSome) (l := p)]
    exact List.drop_left
  unfold readNumber at h
  dsimp only at h
  split at h
  · cases h
  · split at h
    · cases h
    · split at h
      · cases h
        exact hdrop
      · cases h

private theorem takes_readNumber {A : UInt8 → Bool} {radix : Nat} (hA : ∀ b, (toDigit radix b).isSome → A b)
    (maxDigits bound : Nat) (allowZeroPrefix : Bool) :
    Takes A (readNumber radix maxDigits bound allowZeroPrefix) := by
  intro p x rest h
  refine ⟨p.takeWhile fun c => (toDigit radix c).isSome, ?_, ?_⟩
  · rw [rest_of_readNumber h, List.takeWhile_append_dropWhile]
  · intro b hb
    exact hA b (List.mem_takeWhile_imp (p := fun c => (toDigit radix c).isSome) hb)

/-- The separator, where there has to be one, is among what is taken. -/
private theorem readSeparator_takes {α : Type} {A : UInt8 → Bool} {sep : UInt8} (hsep : A sep) {index : Nat}
    {inner : List UInt8 → Option (α × List UInt8)} (hinner : Takes A inner) {p rest : List UInt8} {x : α}
    (h : readSeparator sep index inner p = some (x, rest)) :
    ∃ front, p = front ++ rest ∧ (∀ b ∈ front, A b) ∧ (index ≠ 0 → sep ∈ front) := by
  unfold readSeparator at h
  split at h
  · rename_i hindex
    obtain ⟨front, hp, hfront⟩ := hinner p x rest h
    exact ⟨front, hp, hfront, fun hne => absurd hindex hne⟩
  · split at h
    · rename_i c p
      split at h
      · rename_i hc
        subst hc
        obtain ⟨front, rfl, hfront⟩ := hinner p x rest h
        refine ⟨c :: front, rfl, ?_, fun _ => List.mem_cons_self⟩
        rintro b (_ | ⟨_, hb⟩)
        · exact hsep
        · exact hfront b hb
      · cases h
    · cases h

private theorem takes_readSeparator {α : Type} {A : UInt8 → Bool} {sep : UInt8} (hsep : A sep) (index : Nat)
    {inner : List UInt8 → Option (α × List UInt8)} (hinner : Takes A inner) :
    Takes A (readSeparator sep index inner) := by
  intro p x rest h
  obtain ⟨front, hp, hfront, -⟩ := readSeparator_takes hsep hinner h
  exact ⟨front, hp, hfront⟩

private theorem takes_readOctet (index : Nat) : Takes isV4Byte (readOctet index) := by
  refine takes_readSeparator (by decide) index (takes_readNumber ?_ 3 256 false)
  intro b hb
  rw [isV4Byte, hb, Bool.true_or]

private theorem takes_readIpv4Addr : Takes isV4Byte readIpv4Addr := by
  intro p x rest h
  rw [readIpv4Addr_eq] at h
  simp only [Option.bind_eq_some_iff] at h
  obtain ⟨a, ha, b, hb, c, hc, d, hd, hx⟩ := h
  cases hx
  obtain ⟨front₀, rfl, h₀⟩ := takes_readOctet 0 p a.1 a.2 ha
  obtain ⟨front₁, hp₁, h₁⟩ := takes_readOctet 1 a.2 b.1 b.2 hb
  obtain ⟨front₂, hp₂, h₂⟩ := takes_readOctet 2 b.2 c.1 c.2 hc
  obtain ⟨front₃, hp₃, h₃⟩ := takes_readOctet 3 c.2 d.1 d.2 hd
  refine ⟨front₀ ++ (front₁ ++ (front₂ ++ front₃)), ?_, ?_⟩
  · rw [hp₁, hp₂, hp₃]
    simp only [List.append_assoc]
  · intro byte hbyte
    simp only [List.mem_append] at hbyte
    rcases hbyte with hbyte | hbyte | hbyte | hbyte
    · exact h₀ byte hbyte
    · exact h₁ byte hbyte
    · exact h₂ byte hbyte
    · exact h₃ byte hbyte

/-- A reader that takes bytes of one kind takes bytes of a larger kind. -/
private theorem Takes.mono {α : Type} {A B : UInt8 → Bool} (hAB : ∀ b, A b → B b)
    {read : List UInt8 → Option (α × List UInt8)} (h : Takes A read) : Takes B read := by
  intro p x rest hread
  obtain ⟨front, hp, hfront⟩ := h p x rest hread
  exact ⟨front, hp, fun b hb => hAB b (hfront b hb)⟩

private theorem takes_readGroup : Takes isV6Byte (readNumber 16 4 65536 true) := by
  refine takes_readNumber ?_ 4 65536 true
  intro b hb
  rw [isV6Byte, hb, Bool.true_or, Bool.true_or]

/-- The groups are taken from the front, and from the second one on there is a colon. -/
private theorem readGroups_takes (index room : Nat) (p : List UInt8) :
    ∃ front, p = front ++ (readGroups index room p).2.2 ∧ (∀ b ∈ front, isV6Byte b) ∧
      (index ≠ 0 → (readGroups index room p).1 ≠ [] → 58 ∈ front) ∧
      (2 < (readGroups index room p).1.length → 58 ∈ front) := by
  induction room generalizing index p with
  | zero => exact ⟨[], rfl, by simp, by simp [readGroups], by simp [readGroups]⟩
  | succ room ih =>
    unfold readGroups
    split
    · rename_i v4 rest hv4
      rw [Option.ite_none_right_eq_some] at hv4
      obtain ⟨front, hp, hfront, hcolon⟩ :=
        readSeparator_takes (by decide) (takes_readIpv4Addr.mono fun b => isV6Byte_of_isV4Byte) hv4.2
      exact ⟨front, hp, hfront, fun hindex _ => hcolon hindex, fun hlt => absurd hlt (by simp)⟩
    · split
      · rename_i g rest hg
        obtain ⟨front, hp, hfront, hcolon⟩ := readSeparator_takes (by decide) takes_readGroup hg
        obtain ⟨front', hrest, hfront', hcolon', -⟩ := ih (index + 1) rest
        refine ⟨front ++ front', ?_, ?_, ?_, ?_⟩
        · rw [List.append_assoc, ← hrest, hp]
        · intro b hb
          rcases List.mem_append.1 hb with hb | hb
          · exact hfront b hb
          · exact hfront' b hb
        · intro hindex _
          exact List.mem_append_left _ (hcolon hindex)
        · intro hlt
          refine List.mem_append_right _ (hcolon' (Nat.succ_ne_zero index) ?_)
          intro hnil
          replace hlt : 2 < (g :: (readGroups (index + 1) room rest).1).length := hlt
          rw [hnil] at hlt
          simp at hlt
      · exact ⟨[], rfl, by simp, by simp, by simp⟩

/-- What is taken for an IPv6 address has a colon. -/
private theorem readIpv6Addr_takes {p rest : List UInt8} {octets : Octets 16}
    (h : readIpv6Addr p = some (octets, rest)) :
    ∃ front, p = front ++ rest ∧ (∀ b ∈ front, isV6Byte b) ∧ 58 ∈ front := by
  obtain ⟨front, hp, hfront, -, hcolon⟩ := readGroups_takes 0 8 p
  unfold readIpv6Addr at h
  dsimp only at h
  split at h
  · rename_i hlen
    cases h
    exact ⟨front, hp, hfront, hcolon (by omega)⟩
  · split at h
    · cases h
    · split at h
      · rename_i q hq
        obtain ⟨front', hq', hfront', -⟩ := readGroups_takes 0 (8 - ((readGroups 0 8 p).1.length + 1)) q
        cases h
        refine ⟨front ++ 58 :: 58 :: front', ?_, ?_, by simp⟩
        · rw [List.append_assoc, List.cons_append, List.cons_append, ← hq', ← hq, ← hp]
        · intro b hb
          simp only [List.mem_append, List.mem_cons] at hb
          rcases hb with hb | rfl | rfl | hb
          · exact hfront b hb
          · decide
          · decide
          · exact hfront' b hb
      · cases h

/-- The literal of an IPv4 address has digits and points only. -/
private theorem isV4Byte_of_parse {s : String} {octets : Octets 4} (h : parse s = some (.v4 octets)) :
    ∀ b ∈ Text.asBytes s, isV4Byte b := by
  unfold parse readIpAddr at h
  split at h
  · rename_i ip hread
    split at hread
    · rename_i octets' rest hv4
      cases hread
      obtain ⟨front, hp, hfront⟩ := takes_readIpv4Addr _ _ _ hv4
      rw [List.append_nil] at hp
      intro b hb
      exact hfront b (hp ▸ hb)
    · cases h
      simp at hread
  · cases h

/-- The literal of an IPv6 address has hexadecimal digits, points and colons only, and a colon. -/
private theorem isV6Byte_of_parse {s : String} {octets : Octets 16} (h : parse s = some (.v6 octets)) :
    (∀ b ∈ Text.asBytes s, isV6Byte b) ∧ 58 ∈ Text.asBytes s := by
  unfold parse readIpAddr at h
  split at h
  · rename_i ip hread
    split at hread
    · cases hread
      cases h
    · obtain ⟨⟨octets', rest⟩, hv6, hip⟩ := Option.map_eq_some_iff.1 hread
      cases hip
      obtain ⟨front, hp, hfront, hcolon⟩ := readIpv6Addr_takes hv6
      replace hp : Text.asBytes s = front := by rwa [List.append_nil] at hp
      rw [hp]
      exact ⟨hfront, hcolon⟩
  · cases h

/-- The bytes of a literal, of either kind. -/
theorem isV6Byte_of_mem {s : String} {ip : IpAddr} (h : parse s = some ip) : ∀ b ∈ Text.asBytes s, isV6Byte b := by
  cases ip with
  | v4 octets => exact fun b hb => isV6Byte_of_isV4Byte (isV4Byte_of_parse h b hb)
  | v6 octets => exact (isV6Byte_of_parse h).1

/-- No character of a literal is whitespace. -/
theorem noWhitespace_of_parse {s : String} {ip : IpAddr} (h : parse s = some ip) : Text.NoWhitespace s := by
  have hascii : ∀ b ∈ Text.asBytes s, b.toNat < 128 := fun b hb =>
    Text.forall_byte (P := fun b => isV6Byte b → b.toNat < 128) (by decide +kernel) b (isV6Byte_of_mem h b hb)
  have hall : ∀ n < 128, isV6Byte (UInt8.ofNat n) → Text.isWhitespace (Char.ofNat n) = false := by decide +kernel
  rw [Text.noWhitespace_iff]
  intro c hc
  have hlt := Text.lt_of_asBytes_lt hascii hc
  have hbyte := isV6Byte_of_mem h _ ((Text.mem_asBytes_iff hlt).2 hc)
  rw [← Char.ofNat_toNat c]
  exact hall c.val.toNat hlt hbyte

/-- Neither bracket occurs in a literal. -/
theorem bracket_notMem_of_parse {s : String} {ip : IpAddr} (h : parse s = some ip) :
    '[' ∉ s.toList ∧ ']' ∉ s.toList := by
  constructor
  · intro hc
    exact absurd (isV6Byte_of_mem h _ ((Text.mem_asBytes_iff (by decide)).2 hc)) (by decide)
  · intro hc
    exact absurd (isV6Byte_of_mem h _ ((Text.mem_asBytes_iff (by decide)).2 hc)) (by decide)

theorem colon_notMem_of_parse_v4 {s : String} {octets : Octets 4} (h : parse s = some (.v4 octets)) :
    ':' ∉ s.toList := by
  intro hc
  exact absurd (isV4Byte_of_parse h _ ((Text.mem_asBytes_iff (by decide)).2 hc)) (by decide)

theorem colon_mem_of_parse_v6 {s : String} {octets : Octets 16} (h : parse s = some (.v6 octets)) : ':' ∈ s.toList :=
  (Text.mem_asBytes_iff (by decide)).1 (isV6Byte_of_parse h).2

/-- The empty text is no literal. -/
theorem ne_nil_of_parse {s : String} {ip : IpAddr} (h : parse s = some ip) : s.toList ≠ [] := by
  intro hnil
  have hs : s = "" := String.toList_inj.1 hnil
  rw [hs] at h
  exact absurd h (by rw [show parse "" = none by decide]; simp)

end WarpSocks.IpText
