import WarpSocks.Masque.QpackInteger

/-!
# The CONNECT request can be read back

The field lines of a request are read with the primitives of the decoder, `decode_integer` and
`read_literal_value`, from one line to the next (`Reads`).  For `encode_connect_request` they are the three lines
it was asked for, of strings of any length (`encodeConnectRequest_reads`): the length of a string is written by
`encode_integer`, and the strings that a machine can hold are short enough to be read back.
-/

namespace WarpSocks.Masque.Qpack

open Wire (PrefixInt)

/-- What a field line says that is read with `decode_integer` and `read_literal_value`. -/
inductive RequestLine where
  /-- An Indexed Field Line. -/
  | indexed (isStatic : Bool) (index : Nat)
  /-- A Literal with Name Reference. -/
  | nameRef (neverIndexed isStatic : Bool) (index : Nat) (value : List UInt8)
  deriving DecidableEq

/-- The field line at a position, and the position behind it. -/
def readLine (w : Nat) (payload : List UInt8) (pos : Nat) : Except String (RequestLine × Nat) :=
  match payload[pos]? with
  | none => .error "no line"
  | some b =>
    if b &&& 0x80 ≠ 0 then
      match decodeInteger payload pos 6 with
      | .error e => .error e
      | .ok (index, stop) => .ok (.indexed (b &&& 0x40 != 0) index, stop)
    else if b &&& 0xc0 = 0x40 then
      match decodeInteger payload pos 4 with
      | .error e => .error e
      | .ok (index, start) =>
        match readLiteralValue w payload start with
        | .error e => .error e
        | .ok (value, stop) => .ok (.nameRef (b &&& 0x20 != 0) (b &&& 0x10 != 0) index value, stop)
    else .error "another line"

/-- The field lines from a position to the last byte. -/
inductive Reads (w : Nat) (payload : List UInt8) : Nat → List RequestLine → Prop where
  | done : Reads w payload payload.length []
  | line {pos stop : Nat} {line : RequestLine} {lines : List RequestLine} :
    readLine w payload pos = .ok (line, stop) → Reads w payload stop lines → Reads w payload pos (line :: lines)

/-- Behind the last byte there is no line, so the lines are determined. -/
private theorem Reads.unique {w pos : Nat} {payload : List UInt8} {lines lines' : List RequestLine}
    (h : Reads w payload pos lines) (h' : Reads w payload pos lines') : lines = lines' := by
  have hend {line : RequestLine} {stop : Nat} : readLine w payload payload.length ≠ .ok (line, stop) := by
    simp [readLine]
  induction h generalizing lines' with
  | done =>
    cases h' with
    | done => rfl
    | line hread _ => exact absurd hread hend
  | line hread _ ih =>
    cases h' with
    | done => exact absurd hread hend
    | line hread' hrest =>
      rw [hread, Except.ok.injEq, Prod.mk.injEq] at hread'
      obtain ⟨rfl, rfl⟩ := hread'
      rw [ih hrest]

section Wire

variable {w pos : Nat} {payload y : List UInt8}

private theorem readLine_indexed (index : PrefixInt 6) (kind : index.first &&& 0x80 ≠ 0)
    (h : payload.drop pos = index.wire ++ y) :
    readLine w payload pos = .ok (.indexed (index.first &&& 0x40 != 0) index.value, pos + index.wire.length) := by
  obtain ⟨hget, -⟩ := drop_cons (show payload.drop pos = index.first :: (index.rest ++ y) from h)
  simp only [readLine, hget, kind, not_false_eq_true, ne_eq, ↓reduceIte, decodeInteger_wire (by decide) index h]

private theorem readLine_nameRef (name : PrefixInt 4) (kind : name.first &&& 0xc0 = 0x40) (value : Literal 7 0x80)
    {s : List UInt8} (hs : value.text = .ok s) (hw : payload.length < 2 ^ w)
    (h : payload.drop pos = name.wire ++ (value.wire ++ y)) :
    readLine w payload pos =
      .ok (.nameRef (name.first &&& 0x20 != 0) (name.first &&& 0x10 != 0) name.value s,
        pos + name.wire.length + value.wire.length) := by
  obtain ⟨hget, -⟩ := drop_cons (show payload.drop pos = name.first :: (name.rest ++ (value.wire ++ y)) from h)
  simp only [readLine, hget, not_indexed_of_nameRef _ kind, kind, ↓reduceIte, decodeInteger_wire (by decide) name h,
    readLiteralValue_wire value hs hw (drop_append h)]

end Wire

private theorem not_huffman : ∀ n ≤ 127, (0x00 ||| UInt8.ofNat n) &&& 0x80 = 0 := by decide +kernel

/-- `encode_string` writes a plain literal. -/
private theorem encodeString_literal {s : List UInt8} (h : s.length < 2 ^ 63) :
    ∃ l : Literal 7 0x80, (∀ out, encodeString out s = out ++ l.wire) ∧ l.text = .ok s := by
  have hfits : Fits 7 s.length := .inr (Nat.lt_of_le_of_lt (Nat.sub_le _ _) h)
  have hflags : (0x00 : UInt8).toNat % 2 ^ 7 = 0 := by decide
  obtain ⟨len, hwire, hvalue, hfirst⟩ := encodeInteger_wire (by decide) hflags hfits
  have hplain : len.first &&& 0x80 = 0 := by
    rw [hfirst]
    exact not_huffman _ (Nat.min_le_right _ _)
  refine ⟨⟨len, s, hvalue.symm⟩, fun out => ?_, ?_⟩
  · rw [encodeString, hwire, Literal.wire, List.append_assoc]
  · rw [Literal.text, hplain]
    rfl

/-- The section that `encode_connect_request` writes. -/
private theorem encodeConnectRequest_eq {authority token : String} (ha : (Text.asBytes authority).length < 2 ^ 63)
    (ht : (Text.asBytes token).length < 2 ^ 63) :
    ∃ la lt : Literal 7 0x80, la.text = .ok (Text.asBytes authority) ∧ lt.text = .ok (Text.asBytes token) ∧
      encodeConnectRequest authority token = [0x00, 0x00, 0xcf, 0x50] ++ (la.wire ++ ([0x7f, 0x45] ++ lt.wire)) := by
  obtain ⟨la, hla, hta⟩ := encodeString_literal ha
  obtain ⟨lt, hlt, htt⟩ := encodeString_literal ht
  refine ⟨la, lt, hta, htt, ?_⟩
  unfold encodeConnectRequest
  rw [hla, hlt]
  simp only [List.append_assoc]

/-- The strings of a request are shorter than the request. -/
private theorem length_encodeConnectRequest (authority token : String) :
    (Text.asBytes authority).length + (Text.asBytes token).length <
      (encodeConnectRequest authority token).length := by
  simp only [encodeConnectRequest, encodeString, encodeInteger_eq, List.length_append, List.length_cons]
  omega

/-- A frame of type 1 around the section, if its length can be written. -/
private theorem headersFrame_eq (payload : List UInt8) :
    headersFrame payload =
      if payload.length < 2 ^ 62 then some (Wire.Varint.encode 1 ++ (Wire.Varint.encode payload.length ++ payload))
      else none := by
  rw [headersFrame, writeFrame, write_of_lt [] (by decide)]
  by_cases h : payload.length < 2 ^ 62
  · simp only [write_of_lt _ h, if_pos h, List.nil_append, List.append_assoc]
  · simp only [write, if_neg h]

private theorem read_encode {v : Nat} (h : v < 2 ^ 62) (rest : List UInt8) :
    read (Wire.Varint.encode v ++ rest) = some (v, (Wire.Varint.encode v).length) := by
  rw [read_eq, Wire.Varint.decode_encode_append h, Option.map_some, List.length_append, Nat.add_sub_cancel]

/-- The frame is read as its type, the length of the section and the section. -/
private theorem headersFrame_reads {payload : List UInt8} (h : payload.length < 2 ^ 62) :
    ∃ frame n m, headersFrame payload = some frame ∧ read frame = some (1, n) ∧
      read (frame.drop n) = some (payload.length, m) ∧ frame.drop (n + m) = payload := by
  refine ⟨_, (Wire.Varint.encode 1).length, (Wire.Varint.encode payload.length).length, by rw
    [headersFrame_eq, if_pos h], read_encode (by decide) _, ?_, ?_⟩
  · rw [List.drop_left]
    exact read_encode h payload
  · rw [← List.drop_drop, List.drop_left, List.drop_left]

/-- The section of a CONNECT request is read back as its prefix and exactly three lines up to its last byte: the
method, the authority, and the token, which is never indexed.  Its frame is one of type 1 with the length of the
section.  `w` is the number of bits of a `usize`; no `Vec` has more than `isize::MAX` bytes.  The frame writer
panics at lengths from `2 ^ 62` on. -/
theorem encodeConnectRequest_reads (w : Nat) (hw : w ≤ 64) (authority token : String)
    (hlen : (encodeConnectRequest authority token).length < 2 ^ (w - 1)) :
    decodeInteger (encodeConnectRequest authority token) 0 8 = .ok (0, 1) ∧
    decodeInteger (encodeConnectRequest authority token) 1 7 = .ok (0, 2) ∧
    (∀ lines, Reads w (encodeConnectRequest authority token) 2 lines ↔
      lines = [.indexed true 15, .nameRef false true 0 (Text.asBytes authority),
        .nameRef true true 84 (Text.asBytes token)]) ∧
    ((encodeConnectRequest authority token).length < 2 ^ 62 →
      ∃ frame n m, headersFrame (encodeConnectRequest authority token) = some frame ∧ read frame = some (1, n) ∧
        read (frame.drop n) = some ((encodeConnectRequest authority token).length, m) ∧
        frame.drop (n + m) = encodeConnectRequest authority token) ∧
    (2 ^ 62 ≤ (encodeConnectRequest authority token).length → headersFrame (encodeConnectRequest authority token) =
      none) := by
  have hstrings := length_encodeConnectRequest authority token
  have hlimit : 2 ^ (w - 1) ≤ 2 ^ 63 := Nat.pow_le_pow_right (by decide) (by omega)
  have hw' : (encodeConnectRequest authority token).length < 2 ^ w :=
    Nat.lt_of_lt_of_le hlen (Nat.pow_le_pow_right (by decide) (Nat.sub_le _ _))
  have ha : (Text.asBytes authority).length < 2 ^ 63 := by omega
  have ht : (Text.asBytes token).length < 2 ^ 63 := by omega
  obtain ⟨la, lt, hla, hlt, hsec⟩ := encodeConnectRequest_eq ha ht
  generalize encodeConnectRequest authority token = sec at *
  have hcount : sec.drop 0 = [0x00] ++ (0x00 :: 0xcf :: 0x50 :: (la.wire ++ ([0x7f, 0x45] ++ lt.wire))) := hsec
  have hbase : sec.drop 1 = [0x00] ++ (0xcf :: 0x50 :: (la.wire ++ ([0x7f, 0x45] ++ lt.wire))) := by rw [hsec]; rfl
  have hmethod : sec.drop 2 = [0xcf] ++ (0x50 :: (la.wire ++ ([0x7f, 0x45] ++ lt.wire))) := by rw [hsec]; rfl
  have hname : sec.drop 3 = [0x50] ++ (la.wire ++ ([0x7f, 0x45] ++ lt.wire)) := by rw [hsec]; rfl
  have hauthority : sec.drop 4 = la.wire ++ ([0x7f, 0x45] ++ lt.wire) := by rw [hsec]; rfl
  have htoken : sec.drop (4 + la.wire.length) = [0x7f, 0x45] ++ (lt.wire ++ []) := by
    rw [drop_append hauthority, List.append_nil]
  -- the three lines, each with the position behind it
  have hline₁ : readLine w sec 2 = .ok (.indexed true 15, 3) :=
    readLine_indexed ⟨0xcf, [], by decide⟩ (by decide) hmethod
  have hline₂ : readLine w sec 3 = .ok (.nameRef false true 0 (Text.asBytes authority), 4 + la.wire.length) := by
    rw [readLine_nameRef ⟨0x50, [], by decide⟩ (by decide) la hla hw' hname]
    rfl
  have hline₃ : readLine w sec (4 + la.wire.length) = .ok (.nameRef true true 84 (Text.asBytes token),
    sec.length) := by
    have hend : 4 + la.wire.length + 2 + lt.wire.length = sec.length := by
      rw [hsec]
      simp only [List.length_append, List.length_cons, List.length_nil]
      omega
    rw [← hend]
    exact readLine_nameRef ⟨0x7f, [0x45], by decide⟩ (by decide) lt hlt hw' htoken
  have hreads : Reads w sec 2 _ := .line hline₁ (.line hline₂ (.line hline₃ .done))
  refine ⟨?_, ?_, fun lines => ⟨fun h => h.unique hreads, fun h => h ▸ hreads⟩, headersFrame_reads, fun hlong => ?_⟩
  · exact decodeInteger_wire (by decide) ⟨0x00, [], by decide⟩ hcount
  · exact decodeInteger_wire (by decide) ⟨0x00, [], by decide⟩ hbase
  · rw [headersFrame_eq, if_neg (by omega)]

/-- A request on a machine of 32 bits. -/
theorem encodeConnectRequest_reads_small :
    (encodeConnectRequest "h:1" "abc").length < 2 ^ 31 ∧
    Reads 32 (encodeConnectRequest "h:1" "abc") 2
      [.indexed true 15, .nameRef false true 0 [0x68, 0x3a, 0x31], .nameRef true true 84 [0x61, 0x62, 0x63]] := by
  have hlen : (encodeConnectRequest "h:1" "abc").length < 2 ^ 31 := by decide
  exact ⟨hlen, ((encodeConnectRequest_reads 32 (by decide) "h:1" "abc" hlen).2.2.1 _).2 (by decide)⟩

end WarpSocks.Masque.Qpack
