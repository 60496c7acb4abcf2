import WarpSocks.Wire.Varint

/-!
# Streams of type-length-value records

A record is a type and a length, both variable-length integers, followed by as many payload bytes as the length
says.  Integers need not be in shortest form, so a `Record` keeps the bytes that spell it.  Every byte string is a
sequence of complete records followed by a tail that is empty or ends inside a record, in exactly one way
(`exists_records`, `records_unique`), and `scan` computes that split.  Scanning can be interrupted anywhere: after a
prefix `x` it continues from the tail of `x` (`scan_append`).
-/

namespace Wire

open Varint (decode decode_append decode_eq_some length_of_decode)

/-- A complete record, with the bytes that spell it. -/
structure Record where
  kind : Nat
  payload : List UInt8
  wire : List UInt8
  spells : ∃ r, decode wire = some (kind, r) ∧ decode r = some (payload.length, payload)

namespace Record

/-- Type and payload, without the spelling of the header. -/
def content (r : Record) : Nat × List UInt8 := (r.kind, r.payload)

theorem wire_ne_nil (r : Record) : r.wire ≠ [] := by
  intro h
  obtain ⟨x, hx, -⟩ := r.spells
  simp [h, decode] at hx

end Record

/-- The bytes of a sequence of records. -/
def wireOf (rs : List Record) : List UInt8 := rs.flatMap Record.wire

@[simp] theorem wireOf_nil : wireOf [] = [] := rfl

@[simp] theorem wireOf_cons (r : Record) (rs : List Record) : wireOf (r :: rs) = r.wire ++ wireOf rs := rfl

@[simp] theorem wireOf_append (rs ss : List Record) : wireOf (rs ++ ss) = wireOf rs ++ wireOf ss := by
  simp [wireOf]

/-- Reads a type and a length, returning them and the bytes behind; `none` when the bytes end inside them. -/
def header (bs : List UInt8) : Option (Nat × Nat × List UInt8) :=
  match decode bs with
  | none => none
  | some (kind, r) =>
    match decode r with
    | none => none
    | some (len, rest) => some (kind, len, rest)

/-- Splits off the first record: type, payload and the bytes behind; `none` when the bytes end inside it. -/
def split (bs : List UInt8) : Option (Nat × List UInt8 × List UInt8) :=
  match header bs with
  | none => none
  | some (kind, len, rest) => if len ≤ rest.length then some (kind, rest.take len, rest.drop len) else none

theorem header_eq_some {bs rest : List UInt8} {kind len : Nat} :
    header bs = some (kind, len, rest) ↔ ∃ r, decode bs = some (kind, r) ∧ decode r = some (len, rest) := by
  unfold header
  cases h1 : decode bs with
  | none => simp
  | some p =>
    obtain ⟨k, r⟩ := p
    cases h2 : decode r with
    | none => simp [h2]
    | some q =>
      obtain ⟨l, y⟩ := q
      simp only [h2, Option.some.injEq, Prod.mk.injEq]
      constructor
      · rintro ⟨rfl, rfl, rfl⟩; exact ⟨r, ⟨rfl, rfl⟩, h2⟩
      · rintro ⟨_, ⟨rfl, rfl⟩, h⟩; rw [h2] at h; simp_all

theorem header_append {bs rest : List UInt8} {kind len : Nat} (h : header bs = some (kind, len, rest))
    (y : List UInt8) : header (bs ++ y) = some (kind, len, rest ++ y) := by
  obtain ⟨r, h1, h2⟩ := header_eq_some.1 h
  exact header_eq_some.2 ⟨r ++ y, decode_append h1 y, decode_append h2 y⟩

theorem Record.header_wire (r : Record) (y : List UInt8) :
    header (r.wire ++ y) = some (r.kind, r.payload.length, r.payload ++ y) := by
  obtain ⟨x, h1, h2⟩ := r.spells
  exact header_append (header_eq_some.2 ⟨x, h1, h2⟩) y

theorem Record.split_wire (r : Record) (y : List UInt8) :
    split (r.wire ++ y) = some (r.kind, r.payload, y) := by
  have hlen : r.payload.length ≤ (r.payload ++ y).length := by simp
  simp only [split, r.header_wire y, hlen, ↓reduceIte, List.take_left, List.drop_left]

/-- Bytes without a complete record end in the type, in the length or in the payload. -/
theorem split_eq_none_cases {bs : List UInt8} (h : split bs = none) :
    decode bs = none ∨ (∃ kind r, decode bs = some (kind, r) ∧ decode r = none) ∨
      ∃ kind r len payload, decode bs = some (kind, r) ∧ decode r = some (len, payload) ∧ payload.length < len := by
  cases hkind : decode bs with
  | none => exact .inl rfl
  | some p =>
    obtain ⟨kind, r⟩ := p
    cases hlen : decode r with
    | none => exact .inr (.inl ⟨kind, r, rfl, hlen⟩)
    | some q =>
      obtain ⟨len, payload⟩ := q
      refine .inr (.inr ⟨kind, r, len, payload, rfl, hlen, ?_⟩)
      simp only [split, header_eq_some.2 ⟨r, hkind, hlen⟩] at h
      split at h
      · cases h
      · omega

theorem header_suffix {bs rest : List UInt8} {kind len : Nat} (h : header bs = some (kind, len, rest)) :
    ∃ x, bs = x ++ rest ∧ x ≠ [] ∧ header x = some (kind, len, []) := by
  obtain ⟨r, h1, h2⟩ := header_eq_some.1 h
  obtain ⟨b, x, rfl, hx, rfl⟩ := decode_eq_some h1
  obtain ⟨c, z, rfl, hz, rfl⟩ := decode_eq_some h2
  refine ⟨b :: x ++ (c :: z), by simp, by simp, header_eq_some.2 ⟨c :: z, Varint.decode_cons b hx _, ?_⟩⟩
  have := Varint.decode_cons c hz []
  rwa [List.append_nil] at this

/-- A header followed by its payload is a record. -/
theorem exists_record {bs p : List UInt8} {kind : Nat} (h : header bs = some (kind, p.length, p)) :
    ∃ r : Record, r.content = (kind, p) ∧ r.wire = bs := by
  obtain ⟨r, h1, h2⟩ := header_eq_some.1 h
  exact ⟨⟨kind, p, bs, r, h1, h2⟩, rfl, rfl⟩

/-- The record of a type and a payload, with the integers in shortest form. -/
def Record.shortest (kind : Nat) (payload : List UInt8) (hk : kind < 2 ^ 62) (hp : payload.length < 2 ^ 62) :
    Record where
  kind := kind
  payload := payload
  wire := Varint.encode kind ++ (Varint.encode payload.length ++ payload)
  spells := ⟨_, Varint.decode_encode_append hk _, Varint.decode_encode_append hp _⟩

theorem split_eq_some {bs payload rest : List UInt8} {kind : Nat} (h : split bs = some (kind, payload, rest)) :
    ∃ r : Record, r.content = (kind, payload) ∧ bs = r.wire ++ rest := by
  unfold split at h
  cases hh : header bs with
  | none => simp [hh] at h
  | some q =>
    obtain ⟨k, len, y⟩ := q
    simp only [hh] at h
    split at h
    · rename_i hlen
      simp only [Option.some.injEq, Prod.mk.injEq] at h
      obtain ⟨rfl, rfl, rfl⟩ := h
      obtain ⟨x, rfl, -, hx⟩ := header_suffix hh
      have hx' := header_append hx (y.take len)
      have htake : (y.take len).length = len := by rw [List.length_take]; omega
      have hrec : header (x ++ y.take len) = some (k, (y.take len).length, y.take len) := by
        rw [hx', htake]; rfl
      obtain ⟨r, hr, hw⟩ := exists_record hrec
      exact ⟨r, hr, by rw [hw, List.append_assoc, List.take_append_drop]⟩
    · cases h

theorem length_of_split {bs payload rest : List UInt8} {kind : Nat} (h : split bs = some (kind, payload, rest)) :
    rest.length < bs.length := by
  obtain ⟨r, -, rfl⟩ := split_eq_some h
  have := List.length_pos_iff.2 r.wire_ne_nil
  simp only [List.length_append]
  omega

/-! ### Scanning -/

/-- The contents of the complete records at the front of `bs`, and the tail behind them. -/
def scan (bs : List UInt8) : List (Nat × List UInt8) × List UInt8 :=
  match _h : split bs with
  | none => ([], bs)
  | some (kind, payload, rest) => ((kind, payload) :: (scan rest).1, (scan rest).2)
termination_by bs.length
decreasing_by all_goals exact length_of_split (by assumption)

theorem scan_of_split_none {bs : List UInt8} (h : split bs = none) : scan bs = ([], bs) := by
  rw [scan]
  split
  · rfl
  · rename_i heq; rw [h] at heq; cases heq

theorem scan_wire (r : Record) (y : List UInt8) :
    scan (r.wire ++ y) = (r.content :: (scan y).1, (scan y).2) := by
  rw [scan]
  split
  · rename_i heq; rw [r.split_wire] at heq; cases heq
  · rename_i heq
    rw [r.split_wire] at heq
    simp only [Option.some.injEq, Prod.mk.injEq] at heq
    obtain ⟨rfl, rfl, rfl⟩ := heq
    rfl

theorem scan_wireOf (rs : List Record) (y : List UInt8) :
    scan (wireOf rs ++ y) = (rs.map Record.content ++ (scan y).1, (scan y).2) := by
  induction rs with
  | nil => rfl
  | cons r rs ih => rw [wireOf_cons, List.append_assoc, scan_wire, ih]; rfl

/-- Every byte string is a sequence of complete records followed by an incomplete tail. -/
theorem exists_records (bs : List UInt8) : ∃ rs tail, bs = wireOf rs ++ tail ∧ split tail = none := by
  induction h : bs.length using Nat.strongRecOn generalizing bs with
  | ind n ih =>
    cases hs : split bs with
    | none => exact ⟨[], bs, rfl, hs⟩
    | some q =>
      obtain ⟨kind, payload, rest⟩ := q
      obtain ⟨r, -, hbs⟩ := split_eq_some hs
      obtain ⟨rs, tail, hrest, ht⟩ := ih rest.length (h ▸ length_of_split hs) rest rfl
      exact ⟨r :: rs, tail, by rw [hbs, hrest, wireOf_cons, List.append_assoc], ht⟩

/-- What `scan` returns is such a split. -/
theorem exists_scan (bs : List UInt8) :
    ∃ rs, bs = wireOf rs ++ (scan bs).2 ∧ (scan bs).1 = rs.map Record.content ∧ split (scan bs).2 = none := by
  obtain ⟨rs, tail, rfl, ht⟩ := exists_records bs
  refine ⟨rs, ?_, ?_, ?_⟩ <;> simp [scan_wireOf, scan_of_split_none ht, ht]

/-- Scanning continues from the tail. -/
theorem scan_append (x y : List UInt8) :
    scan (x ++ y) = ((scan x).1 ++ (scan ((scan x).2 ++ y)).1, (scan ((scan x).2 ++ y)).2) := by
  obtain ⟨rs, hx, hc, -⟩ := exists_scan x
  conv => lhs; rw [hx, List.append_assoc, scan_wireOf]
  rw [hc]

theorem Record.eq_of_wire_append {r s : Record} {x y : List UInt8} (h : r.wire ++ x = s.wire ++ y) :
    r = s ∧ x = y := by
  have h1 := r.split_wire x
  rw [h, s.split_wire y] at h1
  simp only [Option.some.injEq, Prod.mk.injEq] at h1
  obtain ⟨hk, hp, rfl⟩ := h1
  have hw := List.append_cancel_right h
  cases r; cases s
  simp_all

/-- An incomplete front of a record is shorter than it. -/
theorem Record.length_lt_of_split_none {r : Record} {t y z : List UInt8} (ht : split t = none)
    (h : t ++ y = r.wire ++ z) : t.length < r.wire.length := by
  apply Nat.lt_of_not_le
  intro hle
  obtain ⟨x, rfl⟩ : r.wire <+: t := List.prefix_of_prefix_length_le ⟨z, h.symm⟩ ⟨y, rfl⟩ hle
  rw [r.split_wire] at ht
  cases ht

theorem Record.split_dropLast (r : Record) : split r.wire.dropLast = none := by
  cases h : split r.wire.dropLast with
  | none => rfl
  | some q =>
    obtain ⟨kind, payload, rest⟩ := q
    obtain ⟨s, -, hs⟩ := split_eq_some h
    -- the record read off a proper front of `r.wire` would be `r` itself
    obtain ⟨b, hb⟩ : ∃ b, r.wire = r.wire.dropLast ++ [b] :=
      ⟨_, (List.dropLast_concat_getLast r.wire_ne_nil).symm⟩
    rw [hs, List.append_assoc, ← List.append_nil r.wire] at hb
    obtain ⟨-, hnil⟩ := Record.eq_of_wire_append hb
    simp at hnil

/-- A byte string splits into complete records and an incomplete tail in one way only. -/
theorem records_unique {rs ss : List Record} {x y : List UInt8} (h : wireOf rs ++ x = wireOf ss ++ y)
    (hx : split x = none) (hy : split y = none) : rs = ss ∧ x = y := by
  induction rs generalizing ss with
  | nil =>
    cases ss with
    | nil => exact ⟨rfl, h⟩
    | cons s ss =>
      rw [wireOf_nil, List.nil_append, wireOf_cons, List.append_assoc] at h
      rw [h, s.split_wire] at hx
      cases hx
  | cons r rs ih =>
    cases ss with
    | nil =>
      rw [wireOf_nil, List.nil_append, wireOf_cons, List.append_assoc] at h
      rw [← h, r.split_wire] at hy
      cases hy
    | cons s ss =>
      rw [wireOf_cons, wireOf_cons, List.append_assoc, List.append_assoc] at h
      obtain ⟨rfl, h'⟩ := Record.eq_of_wire_append h
      obtain ⟨rfl, hxy⟩ := ih h'
      exact ⟨rfl, hxy⟩

/-- A proper front of a sequence of records is some of them and an incomplete tail. -/
theorem exists_front_records {rs : List Record} {x y : List UInt8} (h : x ++ y = wireOf rs) (hy : y ≠ []) :
    ∃ ss r ts tail, rs = ss ++ r :: ts ∧ x = wireOf ss ++ tail ∧ split tail = none := by
  induction rs generalizing x with
  | nil => exact absurd (List.append_eq_nil_iff.1 h).2 hy
  | cons r rs ih =>
    cases hsplit : split x with
    | none => exact ⟨[], r, rs, x, rfl, rfl, hsplit⟩
    | some q =>
      obtain ⟨kind, payload, rest⟩ := q
      obtain ⟨s, -, rfl⟩ := split_eq_some hsplit
      rw [List.append_assoc, wireOf_cons] at h
      obtain ⟨rfl, hrest⟩ := Record.eq_of_wire_append h
      obtain ⟨ss, r, ts, tail, rfl, rfl, htail⟩ := ih hrest
      exact ⟨s :: ss, r, ts, tail, rfl, by rw [wireOf_cons, List.append_assoc], htail⟩

/-! ### Insertions -/

/-- The byte strings `fs` with the records `gaps 0`, `gaps 1`, … inserted before, between and behind them. -/
def weave (gaps : Nat → List Record) : List (List UInt8) → List UInt8
  | [] => wireOf (gaps 0)
  | f :: fs => wireOf (gaps 0) ++ f ++ weave (fun i => gaps (i + 1)) fs

/-- Insertions among records give records again, and do not matter to a reading `f` that skips them. -/
theorem exists_weave {α : Type} (f : Record → List α) (rs : List Record) {gaps : Nat → List Record}
    (hg : ∀ i, ∀ r ∈ gaps i, f r = []) :
    ∃ ss, weave gaps (rs.map Record.wire) = wireOf ss ∧ ss.flatMap f = rs.flatMap f := by
  have hgap (i : Nat) : (gaps i).flatMap f = [] := List.flatMap_eq_nil_iff.2 (hg i)
  induction rs generalizing gaps with
  | nil => exact ⟨gaps 0, rfl, hgap 0⟩
  | cons r rs ih =>
    obtain ⟨ss, hw, hf⟩ := ih (fun i => hg (i + 1)) fun i => hgap (i + 1)
    refine ⟨gaps 0 ++ r :: ss, by simp [weave, hw], ?_⟩
    rw [List.flatMap_append, hgap, List.nil_append, List.flatMap_cons, List.flatMap_cons, hf]

end Wire
