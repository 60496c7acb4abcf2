import WarpSocks.Io
import WarpSocks.Masque.Huffman

/-!
# Decoding a QPACK field section

`decode_headers` of `masque/qpack.rs` and the functions below it.  Positions are indices into the payload; `w` is
the number of bits of a `usize`, which the string lengths are narrowed to.
-/

namespace WarpSocks.Masque.Qpack

open Huffman (shl64)

/-- The loop of `decode_integer` over the continuation bytes. -/
def decodeContinuation (buf : List UInt8) (value p shift : Nat) : Except String (Nat × Nat) :=
  match buf[p]? with
  | none => .error "整数续字节越界"
  | some b =>
    let value := (value + shl64 (b &&& 0x7f).toNat shift) % 2 ^ 64
    if b &&& 0x80 = 0 then .ok (value, p + 1)
    else if 56 < shift + 7 then .error "整数过长"
    else decodeContinuation buf value (p + 1) (shift + 7)
termination_by 63 - shift

/-- `decode_integer`: the value and the position behind it. -/
def decodeInteger (buf : List UInt8) (pos prefixBits : Nat) : Except String (Nat × Nat) :=
  let max := shl64 1 prefixBits - 1
  let mask := UInt8.ofNat max
  match buf[pos]? with
  | none => .error "整数解析越界"
  | some b =>
    let value := (b &&& mask).toNat
    if value < max then .ok (value, pos + 1) else decodeContinuation buf value (pos + 1) 0

/-- `skip_integer`. -/
def skipInteger (buf : List UInt8) (pos prefixBits : Nat) : Except String Nat :=
  match decodeInteger buf pos prefixBits with
  | .error e => .error e
  | .ok (_, p) => .ok p

/-- `decode_string`. -/
def decodeString (raw : List UInt8) (huffman : Bool) : Except String (List UInt8) :=
  if huffman then
    match Huffman.decode raw with
    | .error _ => .error "Huffman 解码失败"
    | .ok s => .ok s
  else .ok raw

/-- `static_status`. -/
def staticStatus : Nat → Option Nat
  | 24 => some 103
  | 25 => some 200
  | 26 => some 304
  | 27 => some 404
  | 28 => some 503
  | 63 => some 100
  | 64 => some 204
  | 65 => some 206
  | 66 => some 302
  | 67 => some 400
  | 68 => some 403
  | 69 => some 421
  | 70 => some 425
  | 71 => some 500
  | _ => none

/-- The end of a string of `len` bytes at `start`, with the texts of its two errors: the length is narrowed to a
`usize`, added with `checked_add`, and compared with the length of the payload. -/
def literalEnd (w : Nat) (payload : List UInt8) (start len : Nat) (overflow outOfRange : String) :
    Except String Nat :=
  if 2 ^ w ≤ start + len % 2 ^ w then .error overflow
  else if payload.length < start + len % 2 ^ w then .error outOfRange
  else .ok (start + len % 2 ^ w)

/-- `payload[start..stop]`. -/
def slice (payload : List UInt8) (start stop : Nat) : List UInt8 := (payload.drop start).take (stop - start)

/-- `read_literal_value`. -/
def readLiteralValue (w : Nat) (payload : List UInt8) (pos : Nat) : Except String (List UInt8 × Nat) :=
  match payload[pos]? with
  | none => .error "值长度解析越界"
  | some b =>
    let huffman := b &&& 0x80 != 0
    match decodeInteger payload pos 7 with
    | .error e => .error e
    | .ok (len, start) =>
      match literalEnd w payload start len "值长度溢出" "值内容越界" with
      | .error e => .error e
      | .ok stop =>
        match decodeString (slice payload start stop) huffman with
        | .error e => .error e
        | .ok value => .ok (value, stop)

/-- `skip_literal_value`. -/
def skipLiteralValue (w : Nat) (payload : List UInt8) (pos : Nat) : Except String Nat :=
  match decodeInteger payload pos 7 with
  | .error e => .error e
  | .ok (len, start) => literalEnd w payload start len "值长度溢出" "值内容越界"

/-- The variables `status` and `colo` of `decode_headers`. -/
structure Found where
  status : Option Nat
  colo : Option String
  deriving DecidableEq, Repr

/-- `ResponseHeaders`. -/
structure ResponseHeaders where
  status : Nat
  colo : Option String
  deriving DecidableEq, Repr

/-- The name `cf-warp-colo`. -/
def cfWarpColo : List UInt8 := [0x63, 0x66, 0x2d, 0x77, 0x61, 0x72, 0x70, 0x2d, 0x63, 0x6f, 0x6c, 0x6f]

/-- The branch of `decode_headers` for an Indexed Field Line that starts with `b`. -/
def decodeIndexed (payload : List UInt8) (pos : Nat) (b : UInt8) (found : Found) : Except String (Found × Nat) :=
  let staticTable := b &&& 0x40 != 0
  match decodeInteger payload pos 6 with
  | .error e => .error e
  | .ok (idx, n) =>
    if staticTable then
      if idx = 25 then .ok ({ found with status := some 200 }, n)
      else
        match staticStatus idx with
        | some code => .ok ({ found with status := some code }, n)
        | none => .ok (found, n)
    else .ok (found, n)

/-- The branch for a Literal with Name Reference. -/
def decodeNameRef (w : Nat) (payload : List UInt8) (pos : Nat) (found : Found) : Except String (Found × Nat) :=
  match decodeInteger payload pos 4 with
  | .error e => .error e
  | .ok (_, n) =>
    match skipLiteralValue w payload n with
    | .error e => .error e
    | .ok pos => .ok (found, pos)

/-- The branch for a Literal with Literal Name that starts with `b`. -/
def decodeLiteralName (w : Nat) (payload : List UInt8) (pos : Nat) (b : UInt8) (found : Found) :
    Except String (Found × Nat) :=
  let nameHuffman := b &&& 0x08 != 0
  match decodeInteger payload pos 3 with
  | .error e => .error e
  | .ok (nameLen, n) =>
    match literalEnd w payload n nameLen "字段名长度溢出" "字段名内容越界" with
    | .error e => .error e
    | .ok nameEnd =>
      match decodeString (slice payload n nameEnd) nameHuffman with
      | .error e => .error e
      | .ok name =>
        match readLiteralValue w payload nameEnd with
        | .error e => .error e
        | .ok (value, pos) =>
          if name = cfWarpColo then .ok ({ found with colo := stringFromUtf8 value }, pos) else .ok (found, pos)

/-- One round of the loop of `decode_headers`. -/
def decodeField (w : Nat) (payload : List UInt8) (pos : Nat) (b : UInt8) (found : Found) :
    Except String (Found × Nat) :=
  if b &&& 0x80 ≠ 0 then decodeIndexed payload pos b found
  else if b &&& 0xc0 = 0x40 then decodeNameRef w payload pos found
  else if b &&& 0xe0 = 0x20 then decodeLiteralName w payload pos b found
  else .error "响应包含未预期的 post-base 字段"

/-! ### What a successful read has read -/

section Cases

variable {w pos q : Nat} {payload : List UInt8}

theorem skipLiteralValue_cases (h : skipLiteralValue w payload pos = .ok q) :
    ∃ len start, decodeInteger payload pos 7 = .ok (len, start) ∧
      literalEnd w payload start len "值长度溢出" "值内容越界" = .ok q := by
  unfold skipLiteralValue at h
  split at h
  · cases h
  · rename_i len start hint
    exact ⟨len, start, hint, h⟩

theorem readLiteralValue_cases {value : List UInt8} (h : readLiteralValue w payload pos = .ok (value, q)) :
    ∃ b len start, payload[pos]? = some b ∧ decodeInteger payload pos 7 = .ok (len, start) ∧
      literalEnd w payload start len "值长度溢出" "值内容越界" = .ok q ∧
      decodeString (slice payload start q) (b &&& 0x80 != 0) = .ok value := by
  unfold readLiteralValue at h
  split at h
  · cases h
  rename_i b hget
  dsimp only at h
  split at h
  · cases h
  rename_i len start hint
  split at h
  · cases h
  rename_i stop hend
  split at h
  · cases h
  rename_i text htext
  simp only [Except.ok.injEq, Prod.mk.injEq] at h
  obtain ⟨rfl, rfl⟩ := h
  exact ⟨b, len, start, hget, hint, hend, htext⟩

variable {b : UInt8} {found found' : Found}

theorem decodeIndexed_cases (h : decodeIndexed payload pos b found = .ok (found', q)) :
    ∃ idx, decodeInteger payload pos 6 = .ok (idx, q) := by
  unfold decodeIndexed at h
  dsimp only at h
  split at h
  · cases h
  rename_i idx n hint
  have hn : n = q := by
    repeat' split at h
    all_goals
      simp only [Except.ok.injEq, Prod.mk.injEq] at h
      exact h.2
  exact ⟨idx, hn ▸ hint⟩

theorem decodeNameRef_cases (h : decodeNameRef w payload pos found = .ok (found', q)) :
    ∃ idx n, decodeInteger payload pos 4 = .ok (idx, n) ∧ skipLiteralValue w payload n = .ok q := by
  unfold decodeNameRef at h
  split at h
  · cases h
  rename_i idx n hint
  split at h
  · cases h
  rename_i hskip
  simp only [Except.ok.injEq, Prod.mk.injEq] at h
  exact ⟨idx, n, hint, h.2 ▸ hskip⟩

theorem decodeLiteralName_cases (h : decodeLiteralName w payload pos b found = .ok (found', q)) :
    ∃ nameLen n nameEnd name value, decodeInteger payload pos 3 = .ok (nameLen, n) ∧
      literalEnd w payload n nameLen "字段名长度溢出" "字段名内容越界" = .ok nameEnd ∧
      decodeString (slice payload n nameEnd) (b &&& 0x08 != 0) = .ok name ∧
      readLiteralValue w payload nameEnd = .ok (value, q) := by
  unfold decodeLiteralName at h
  dsimp only at h
  split at h
  · cases h
  rename_i nameLen n hint
  split at h
  · cases h
  rename_i nameEnd hend
  split at h
  · cases h
  rename_i name hname
  split at h
  · cases h
  rename_i value stop hread
  have hstop : stop = q := by
    split at h <;> simp only [Except.ok.injEq, Prod.mk.injEq] at h <;> exact h.2
  exact ⟨nameLen, n, nameEnd, name, value, hint, hend, hname, hstop ▸ hread⟩

theorem decodeField_cases (h : decodeField w payload pos b found = .ok (found', q)) :
    (b &&& 0x80 ≠ 0 ∧ decodeIndexed payload pos b found = .ok (found', q)) ∨
    (b &&& 0xc0 = 0x40 ∧ decodeNameRef w payload pos found = .ok (found', q)) ∨
    (b &&& 0xe0 = 0x20 ∧ decodeLiteralName w payload pos b found = .ok (found', q)) := by
  unfold decodeField at h
  split at h
  · exact .inl ⟨‹_›, h⟩
  split at h
  · exact .inr (.inl ⟨‹_›, h⟩)
  split at h
  · exact .inr (.inr ⟨‹_›, h⟩)
  · cases h

end Cases

/-! ### The loop

Every round moves the position forward, so the loop ends. -/

private theorem lt_of_decodeContinuation {buf : List UInt8} {value p shift v q : Nat}
    (h : decodeContinuation buf value p shift = .ok (v, q)) : p < q := by
  fun_induction decodeContinuation buf value p shift with
  | case1 => cases h
  | case2 value p shift b hb value' hlast =>
    simp only [Except.ok.injEq, Prod.mk.injEq] at h
    omega
  | case3 => cases h
  | case4 value p shift b hb value' hmore hshift ih => exact Nat.lt_trans (Nat.lt_succ_self p) (ih h)

private theorem lt_of_decodeInteger {buf : List UInt8} {pos prefixBits v q : Nat}
    (h : decodeInteger buf pos prefixBits = .ok (v, q)) : pos < q := by
  unfold decodeInteger at h
  dsimp only at h
  split at h
  · cases h
  · split at h
    · simp only [Except.ok.injEq, Prod.mk.injEq] at h
      omega
    · exact Nat.lt_trans (Nat.lt_succ_self pos) (lt_of_decodeContinuation h)

private theorem le_of_literalEnd {w start len stop : Nat} {payload : List UInt8} {e₁ e₂ : String}
    (h : literalEnd w payload start len e₁ e₂ = .ok stop) : start ≤ stop := by
  unfold literalEnd at h
  split at h
  · cases h
  · split at h
    · cases h
    · rw [Except.ok.injEq] at h
      omega

private theorem lt_of_readLiteralValue {w pos q : Nat} {payload value : List UInt8}
    (h : readLiteralValue w payload pos = .ok (value, q)) : pos < q := by
  obtain ⟨b, len, start, -, hint, hend, -⟩ := readLiteralValue_cases h
  exact Nat.lt_of_lt_of_le (lt_of_decodeInteger hint) (le_of_literalEnd hend)

private theorem lt_of_skipLiteralValue {w pos q : Nat} {payload : List UInt8}
    (h : skipLiteralValue w payload pos = .ok q) : pos < q := by
  obtain ⟨len, start, hint, hend⟩ := skipLiteralValue_cases h
  exact Nat.lt_of_lt_of_le (lt_of_decodeInteger hint) (le_of_literalEnd hend)

theorem lt_of_decodeField {w pos q : Nat} {payload : List UInt8} {b : UInt8} {found found' : Found}
    (h : decodeField w payload pos b found = .ok (found', q)) : pos < q := by
  rcases decodeField_cases h with ⟨-, h⟩ | ⟨-, h⟩ | ⟨-, h⟩
  · obtain ⟨idx, hint⟩ := decodeIndexed_cases h
    exact lt_of_decodeInteger hint
  · obtain ⟨idx, n, hint, hskip⟩ := decodeNameRef_cases h
    exact Nat.lt_trans (lt_of_decodeInteger hint) (lt_of_skipLiteralValue hskip)
  · obtain ⟨nameLen, n, nameEnd, name, value, hint, hend, -, hread⟩ := decodeLiteralName_cases h
    calc pos < n := lt_of_decodeInteger hint
      _ ≤ nameEnd := le_of_literalEnd hend
      _ < q := lt_of_readLiteralValue hread

/-- The loop of `decode_headers`. -/
def decodeFields (w : Nat) (payload : List UInt8) (pos : Nat) (found : Found) : Except String Found :=
  match _hb : payload[pos]? with
  | none => .ok found
  | some b =>
    match _h : decodeField w payload pos b found with
    | .error e => .error e
    | .ok (found, pos) => decodeFields w payload pos found
termination_by payload.length - pos
decreasing_by
  have := lt_of_decodeField _h
  have := (List.getElem?_eq_some_iff.1 _hb).1
  omega

/-- `decode_headers`. -/
def decodeHeaders (w : Nat) (payload : List UInt8) : Except String ResponseHeaders :=
  match skipInteger payload 0 8 with
  | .error e => .error e
  | .ok pos =>
    match skipInteger payload pos 7 with
    | .error e => .error e
    | .ok pos =>
      match decodeFields w payload pos ⟨none, none⟩ with
      | .error e => .error e
      | .ok found =>
        match found.status with
        | none => .error "响应头中未找到 :status"
        | some status => .ok ⟨status, found.colo⟩

theorem decodeFields_eq (w : Nat) (payload : List UInt8) (pos : Nat) (found : Found) :
    decodeFields w payload pos found =
      match payload[pos]? with
      | none => .ok found
      | some b =>
        match decodeField w payload pos b found with
        | .error e => .error e
        | .ok (found, pos) => decodeFields w payload pos found := by
  rw [decodeFields]
  split
  · rename_i h; rw [h]
  · rename_i h
    rw [h]
    dsimp only
    split
    · rename_i h'; rw [h']
    · rename_i h'; rw [h']

end WarpSocks.Masque.Qpack
