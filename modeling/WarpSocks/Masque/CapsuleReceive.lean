import WarpSocks.Masque.Capsule

/-!
# What `receive_packets` makes of a stream

The capsules are the `Wire.Record`s of the stream.  One round of `parseCapsules` takes one record off the buffer
(`parseCapsules_wire`), so a call of it offers the IP packets of the complete records and keeps the tail
(`parseCapsules_scan`).  Over a whole stream `receive_packets` either refuses it for its size or offers exactly
the IP packets among its records (`receiveLoop_outcome`); which of the two is decided by `Fits`, about the lengths
declared in the stream, and `Overflows`, about its segmentation.
-/

namespace WarpSocks.Masque.Capsule

open Wire (Record wireOf header scan wireOf_nil wireOf_cons)
open Wire.Varint (decode)

/-- The packet offered for a record, if any. -/
def packetOf (c : Nat × List UInt8) : Option (List UInt8) :=
  if c.1 = 0 ∧ isIp (stripContext c.2) then some (stripContext c.2) else none

/-- Offers packets one by one until the channel turns out to be closed. -/
def offerAll (chan : Nat → TrySend) : List (List UInt8) → List (List UInt8) → Bool × List (List UInt8)
  | offers, [] => (false, offers)
  | offers, p :: ps => if chan offers.length = .closed then (true, offers ++ [p])
    else offerAll chan (offers ++ [p]) ps

private theorem offerAll_append (chan : Nat → TrySend) (offers ps qs : List (List UInt8)) :
    offerAll chan offers (ps ++ qs) =
      if (offerAll chan offers ps).1 then offerAll chan offers ps
      else offerAll chan (offerAll chan offers ps).2 qs := by
  induction ps generalizing offers with
  | nil => rfl
  | cons p ps ih =>
    simp only [List.cons_append, offerAll]
    split
    · rfl
    · exact ih _

theorem offerAll_open {chan : Nat → TrySend} (h : ∀ i, chan i ≠ .closed) (offers ps : List (List UInt8)) :
    offerAll chan offers ps = (false, offers ++ ps) := by
  induction ps generalizing offers with
  | nil => simp [offerAll]
  | cons p ps ih => simp [offerAll, h, ih]

/-! ### One round -/

variable {w : Nat} (chan : Nat → TrySend)

private theorem parseCapsules_short {buf : List UInt8} {consumed : Nat} (offers : List (List UInt8))
    (h : header (buf.drop consumed) = none) :
    parseCapsules w chan buf consumed offers = (.more consumed, offers) := by
  rw [parseCapsules_eq]
  unfold header at h
  cases h1 : decode (buf.drop consumed) with
  | none => simp [read_eq, h1]
  | some p =>
    obtain ⟨kind, r⟩ := p
    obtain ⟨b, x, hx, hlen, -⟩ := Wire.Varint.decode_eq_some h1
    have hdrop : buf.drop (consumed + ((buf.drop consumed).length - r.length)) = r := by
      rw [← List.drop_drop, hx, List.length_append, Nat.add_sub_cancel, List.drop_left]
    cases h2 : decode r with
    | some q => simp [h1, h2] at h
    | none => simp only [read_eq, h1, Option.map_some, hdrop, h2, Option.map_none]

/-- The branches behind a complete header. -/
private theorem parseCapsules_header {buf rest : List UInt8} {consumed kind length : Nat}
    (offers : List (List UInt8)) (hpos : consumed ≤ buf.length)
    (h : header (buf.drop consumed) = some (kind, length, rest)) :
    parseCapsules w chan buf consumed offers =
      if 2 ^ w ≤ length then (.failed .platformLimit, offers)
      else if maxCapsuleBuffer < length then (.failed (.lengthLimit length), offers)
      else if rest.length < length then (.more consumed, offers)
      else
        match packetOf (kind, rest.take length) with
        | none => parseCapsules w chan buf (buf.length - (rest.drop length).length) offers
        | some packet =>
          if chan offers.length = .closed then (.closed, offers ++ [packet])
          else parseCapsules w chan buf (buf.length - (rest.drop length).length) (offers ++ [packet]) := by
  obtain ⟨r, h1, h2⟩ := Wire.header_eq_some.1 h
  obtain ⟨b, x, hx, -, -⟩ := Wire.Varint.decode_eq_some h1
  obtain ⟨c, y, hy, -, -⟩ := Wire.Varint.decode_eq_some h2
  have hlen := congrArg List.length hx
  have hlen' := congrArg List.length hy
  simp only [List.length_drop, List.cons_append, List.length_cons, List.length_append] at hlen hlen'
  have hdrop : buf.drop (consumed + ((buf.drop consumed).length - r.length)) = r := by
    rw [← List.drop_drop, hx, List.length_append, Nat.add_sub_cancel, List.drop_left]
  have hdrop' : buf.drop (consumed + ((buf.drop consumed).length - r.length + (r.length - rest.length))) = rest := by
    rw [← Nat.add_assoc, ← List.drop_drop, hdrop, hy, List.length_append, Nat.add_sub_cancel, List.drop_left]
  have hmore : buf.length - consumed < (buf.drop consumed).length - r.length + (r.length - rest.length) + length ↔
      rest.length < length := by
    rw [List.length_drop]; omega
  rw [parseCapsules_eq]
  simp only [read_eq, h1, Option.map_some, hdrop, h2, hdrop', hmore, packetOf]
  split
  · rfl
  split
  · rfl
  split
  · rfl
  rename_i hle
  have hnext : consumed + ((buf.drop consumed).length - r.length + (r.length - rest.length) + length) =
      buf.length - (rest.drop length).length := by
    rw [List.length_drop, List.length_drop]; omega
  simp only [hnext]
  by_cases hk : kind = 0
  · by_cases hip : isIp (stripContext (rest.take length)) = true
    · simp only [hk, hip, ↓reduceIte, and_self]
    · simp only [hk, hip, ↓reduceIte, and_false, Bool.false_eq_true]
  · simp only [hk, ↓reduceIte, false_and]

/-! ### One chunk -/

/-- The IP packets among the complete records of `bs`. -/
def packetsOf (bs : List UInt8) : List (List UInt8) := (scan bs).1.filterMap packetOf

/-- No length declared in `bs`, the one of an incomplete last record included, exceeds the per-capsule limit. -/
def Fits (bs : List UInt8) : Prop :=
  (∀ c ∈ (scan bs).1, c.2.length ≤ maxCapsuleBuffer) ∧
  ∀ kind length rest, header (scan bs).2 = some (kind, length, rest) → length ≤ maxCapsuleBuffer

theorem packetsOf_wire (r : Record) (y : List UInt8) :
    packetsOf (r.wire ++ y) = (packetOf r.content).toList ++ packetsOf y := by
  simp only [packetsOf, Wire.scan_wire, List.filterMap_cons]
  cases packetOf r.content <;> rfl

private theorem fits_wire {r : Record} {y : List UInt8} :
    Fits (r.wire ++ y) ↔ r.payload.length ≤ maxCapsuleBuffer ∧ Fits y := by
  simp only [Fits, Wire.scan_wire, List.forall_mem_cons, Record.content, and_assoc]

private theorem fits_of_split_none {t : List UInt8} (h : Wire.split t = none) :
    Fits t ↔ ∀ kind length rest, header t = some (kind, length, rest) → length ≤ maxCapsuleBuffer := by
  simp only [Fits, Wire.scan_of_split_none h, List.not_mem_nil, false_implies, implies_true, true_and]

/-- Where the inner loop stops after offering, with `consumed` bytes parsed. -/
def parsedOf (outcome : Bool × List (List UInt8)) (consumed : Nat) : Parsed × List (List UInt8) :=
  if outcome.1 then (.closed, outcome.2) else (.more consumed, outcome.2)

private theorem maxCapsuleBuffer_lt (hw : 32 ≤ w) : maxCapsuleBuffer < 2 ^ w :=
  Nat.lt_of_lt_of_le (by decide : maxCapsuleBuffer < 2 ^ 32) (Nat.pow_le_pow_right (by decide) hw)

theorem parseCapsules_tail (hw : 32 ≤ w) {buf : List UInt8} {consumed : Nat} (offers : List (List UInt8))
    (hpos : consumed ≤ buf.length) (ht : Wire.split (buf.drop consumed) = none) :
    parseCapsules w chan buf consumed offers = (.more consumed, offers) ∨
    ∃ e, parseCapsules w chan buf consumed offers = (.failed e, offers) ∧ e.IsLimit ∧ ¬ Fits (buf.drop consumed) := by
  rw [fits_of_split_none ht]
  cases hh : header (buf.drop consumed) with
  | none => exact .inl (parseCapsules_short chan offers hh)
  | some q =>
    obtain ⟨kind, length, rest⟩ := q
    have hmax := maxCapsuleBuffer_lt hw
    rw [parseCapsules_header chan offers hpos hh]
    split
    · exact .inr ⟨_, rfl, trivial, fun hfits => by have := hfits kind length rest rfl; omega⟩
    split
    · exact .inr ⟨_, rfl, trivial, fun hfits => by have := hfits kind length rest rfl; omega⟩
    split
    · exact .inl rfl
    · rename_i hle
      simp [Wire.split, hh, hle] at ht

theorem parseCapsules_wire (hw : 32 ≤ w) {buf y : List UInt8} {consumed : Nat} (r : Record)
    (offers : List (List UInt8)) (hpos : consumed ≤ buf.length) (hbuf : buf.drop consumed = r.wire ++ y) :
    parseCapsules w chan buf consumed offers =
      (if (offerAll chan offers (packetOf r.content).toList).1 then
        (.closed, (offerAll chan offers (packetOf r.content).toList).2)
      else parseCapsules w chan buf (buf.length - y.length) (offerAll chan offers (packetOf r.content).toList).2) ∨
    ∃ e, parseCapsules w chan buf consumed offers = (.failed e, offers) ∧ e.IsLimit ∧ ¬ Fits (buf.drop consumed) := by
  have hh : header (buf.drop consumed) = some (r.kind, r.payload.length, r.payload ++ y) := hbuf ▸ r.header_wire y
  have hmax := maxCapsuleBuffer_lt hw
  rw [parseCapsules_header chan offers hpos hh, hbuf, fits_wire]
  split
  · exact .inr ⟨_, rfl, trivial, fun hfits => by omega⟩
  split
  · exact .inr ⟨_, rfl, trivial, fun hfits => by omega⟩
  rw [if_neg (by simp), List.take_left, List.drop_left]
  left
  show (match packetOf r.content with | none => _ | some packet => _) = _
  cases packetOf r.content with
  | none => rfl
  | some packet =>
    simp only [Option.toList_some, offerAll]
    split <;> rfl

/-- The inner loop offers the packets of the complete records and keeps the tail, or refuses a declared length. -/
theorem parseCapsules_scan (hw : 32 ≤ w) {buf : List UInt8} {consumed : Nat} (offers : List (List UInt8))
    (hpos : consumed ≤ buf.length) :
    parseCapsules w chan buf consumed offers =
      parsedOf (offerAll chan offers (packetsOf (buf.drop consumed)))
        (buf.length - (scan (buf.drop consumed)).2.length) ∨
    ∃ e os, parseCapsules w chan buf consumed offers = (.failed e, os) ∧ e.IsLimit ∧ ¬ Fits (buf.drop consumed) := by
  obtain ⟨rs, tail, hbuf, ht⟩ := Wire.exists_records (buf.drop consumed)
  induction rs generalizing consumed offers with
  | nil =>
    rw [wireOf_nil, List.nil_append] at hbuf
    rw [← hbuf] at ht
    rcases parseCapsules_tail chan hw offers hpos ht with h | ⟨e, h, hlim, hfits⟩
    · left
      have hcons : buf.length - (buf.length - consumed) = consumed := by omega
      simp only [h, packetsOf, Wire.scan_of_split_none ht, List.filterMap_nil, offerAll, parsedOf,
        Bool.false_eq_true, ↓reduceIte, List.length_drop, hcons]
    · exact .inr ⟨e, offers, h, hlim, hfits⟩
  | cons r rs ih =>
    rw [wireOf_cons, List.append_assoc] at hbuf
    rcases parseCapsules_wire chan hw r offers hpos hbuf with h | ⟨e, h, hlim, hfits⟩
    · rw [h, hbuf, packetsOf_wire, offerAll_append, Wire.scan_wire, fits_wire]
      -- the next round starts where the record ends
      have hnext : buf.drop (buf.length - (wireOf rs ++ tail).length) = wireOf rs ++ tail := by
        have hsuf : wireOf rs ++ tail <:+ buf := (hbuf ▸ List.suffix_append r.wire _).trans (List.drop_suffix _ _)
        exact (List.suffix_iff_eq_drop.1 hsuf).symm
      split
      · exact .inl (by simp only [parsedOf, *, ↓reduceIte])
      · rcases ih _ (Nat.sub_le _ _) hnext with h' | ⟨e, os, h', hlim, hfits⟩
        · exact .inl (by rw [h', hnext])
        · exact .inr ⟨e, os, h', hlim, fun hf => hfits (by rw [hnext]; exact hf.2)⟩
    · exact .inr ⟨e, offers, h, hlim, hfits⟩

/-! ### The whole stream -/

private theorem fits_append {x y : List UInt8} (h : Fits (x ++ y)) : Fits x ∧ Fits ((scan x).2 ++ y) := by
  obtain ⟨rs, hx, hc, ht⟩ := Wire.exists_scan x
  have hscan := Wire.scan_append x y
  have hy : Fits ((scan x).2 ++ y) := by
    refine ⟨fun c hcm => h.1 c ?_, fun kind length rest hh => h.2 kind length rest ?_⟩
    · rw [hscan]; exact List.mem_append_right _ hcm
    · rw [hscan]; exact hh
  refine ⟨⟨fun c hcm => h.1 c (by rw [hscan]; exact List.mem_append_left _ hcm), fun kind length rest hh => ?_⟩, hy⟩
  -- the header at the end of `x` heads a complete record of `x ++ y` or its tail
  have hh' := Wire.header_append hh y
  obtain ⟨ss, tail, hs, hts⟩ := Wire.exists_records ((scan x).2 ++ y)
  rw [hs] at hy hh'
  cases ss with
  | nil => exact (fits_of_split_none hts).1 hy kind length _ hh'
  | cons s ss =>
    rw [wireOf_cons, List.append_assoc] at hy hh'
    rw [s.header_wire] at hh'
    simp only [Option.some.injEq, Prod.mk.injEq] at hh'
    rw [← hh'.2.1]
    exact (fits_wire.1 hy).1

/-- Some chunk arrives when too much is left over from the chunks before it. -/
def Overflows (buf : List UInt8) (chunks : List (List UInt8)) : Prop :=
  ∃ pre c post, chunks = pre ++ c :: post ∧
    maxCapsuleBuffer < (scan (buf ++ pre.flatten)).2.length + c.length

/-- How `receive_packets` ends when nothing stops it before the stream or the channel closes. -/
def closedOf (outcome : Bool × List (List UInt8)) : Progress ReceiveError × List (List UInt8) :=
  if outcome.1 then (.finished, outcome.2) else (.failed .streamClosed, outcome.2)

private theorem receiveLoop_chunk (hw : 32 ≤ w) {buf c : List UInt8} (stream : List Data)
    (offers : List (List UInt8)) (hle : buf.length + c.length ≤ maxCapsuleBuffer) :
    receiveLoop w chan (.chunk c :: stream) buf offers =
      (if (offerAll chan offers (packetsOf (buf ++ c))).1 then
        (.finished, (offerAll chan offers (packetsOf (buf ++ c))).2)
      else receiveLoop w chan stream (scan (buf ++ c)).2 (offerAll chan offers (packetsOf (buf ++ c))).2) ∨
    ∃ e os, receiveLoop w chan (.chunk c :: stream) buf offers = (.failed e, os) ∧ e.IsLimit ∧ ¬ Fits (buf ++ c) := by
  rw [receiveLoop, if_neg (Nat.not_lt.2 hle)]
  rcases parseCapsules_scan chan hw offers (Nat.zero_le (buf ++ c).length) with h | ⟨e, os, h, hlim, hfits⟩
  · left
    rw [h, List.drop_zero, parsedOf]
    by_cases hclosed : (offerAll chan offers (packetsOf (buf ++ c))).1 = true
    · simp only [hclosed, ↓reduceIte]
    · obtain ⟨rs, hx, -, -⟩ := Wire.exists_scan (buf ++ c)
      have hsuf : (scan (buf ++ c)).2 <:+ buf ++ c := ⟨wireOf rs, hx.symm⟩
      simp only [hclosed, ↓reduceIte, Bool.false_eq_true, ← List.suffix_iff_eq_drop.1 hsuf]
  · exact .inr ⟨e, os, by rw [h], hlim, hfits⟩

theorem packetsOf_append (x y : List UInt8) :
    packetsOf (x ++ y) = packetsOf x ++ packetsOf ((scan x).2 ++ y) := by
  rw [packetsOf, Wire.scan_append, List.filterMap_append]
  rfl

/-- A stream is refused for its size or its packets are offered. -/
theorem receiveLoop_outcome (hw : 32 ≤ w) (chunks : List (List UInt8)) (buf : List UInt8)
    (offers : List (List UInt8)) (hbuf : Wire.split buf = none) :
    receiveLoop w chan (chunks.map .chunk) buf offers =
      closedOf (offerAll chan offers (packetsOf (buf ++ chunks.flatten))) ∨
    ∃ e os, receiveLoop w chan (chunks.map .chunk) buf offers = (.failed e, os) ∧ e.IsLimit ∧
      (¬ Fits (buf ++ chunks.flatten) ∨ Overflows buf chunks) := by
  induction chunks generalizing buf offers with
  | nil =>
    left
    simp [packetsOf, Wire.scan_of_split_none hbuf, offerAll, closedOf, receiveLoop]
  | cons c chunks ih =>
    by_cases hle : buf.length + c.length ≤ maxCapsuleBuffer
    · rw [List.flatten_cons, ← List.append_assoc]
      rcases receiveLoop_chunk chan hw (chunks.map .chunk) offers hle with h | ⟨e, os, h, hlim, hfits⟩
      · rw [List.map_cons, h, packetsOf_append (buf ++ c), offerAll_append]
        by_cases hclosed : (offerAll chan offers (packetsOf (buf ++ c))).1 = true
        · exact .inl (by simp only [closedOf, hclosed, ↓reduceIte])
        · simp only [hclosed, ↓reduceIte, Bool.false_eq_true]
          obtain ⟨-, -, -, ht⟩ := Wire.exists_scan (buf ++ c)
          rcases ih _ _ ht with h' | ⟨e, os, h', hlim, hwhy⟩
          · exact .inl h'
          · refine .inr ⟨e, os, h', hlim, hwhy.imp (fun hf hF => hf (fits_append hF).2) ?_⟩
            rintro ⟨pre, d, post, rfl, hover⟩
            refine ⟨c :: pre, d, post, rfl, ?_⟩
            rw [List.flatten_cons, ← List.append_assoc, Wire.scan_append]
            exact hover
      · exact .inr ⟨e, os, h, hlim, .inl fun hF => hfits (fits_append hF).1⟩
    · refine .inr ⟨.bufferLimit, offers, by rw [List.map_cons, receiveLoop, if_pos (Nat.lt_of_not_le hle)], trivial,
        .inr ⟨[], c, chunks, rfl, ?_⟩⟩
      simpa [Wire.scan_of_split_none hbuf] using Nat.lt_of_not_le hle

/-- As long as the channel is open and every length is in order, an overflow is refused. -/
theorem receiveLoop_overflow (hw : 32 ≤ w) (hopen : ∀ i, chan i ≠ .closed) {chunks : List (List UInt8)}
    (buf : List UInt8) (offers : List (List UInt8)) (hbuf : Wire.split buf = none)
    (hfits : Fits (buf ++ chunks.flatten)) (hover : Overflows buf chunks) :
    ∃ os, receiveLoop w chan (chunks.map .chunk) buf offers = (.failed .bufferLimit, os) := by
  induction chunks generalizing buf offers with
  | nil => obtain ⟨pre, c, post, h, -⟩ := hover; simp at h
  | cons c chunks ih =>
    by_cases hle : buf.length + c.length ≤ maxCapsuleBuffer
    · rw [List.flatten_cons, ← List.append_assoc] at hfits
      obtain ⟨hf, hf'⟩ := fits_append hfits
      obtain ⟨-, -, -, ht⟩ := Wire.exists_scan (buf ++ c)
      rcases receiveLoop_chunk chan hw (chunks.map .chunk) offers hle with h | ⟨e, os, h, hlim, hno⟩
      · rw [List.map_cons, h, offerAll_open hopen, if_neg (by simp)]
        refine ih _ _ ht hf' ?_
        obtain ⟨pre, d, post, hsplit, hover⟩ := hover
        cases pre with
        | nil =>
          simp only [List.nil_append, List.cons.injEq, List.flatten_nil, List.append_nil,
            Wire.scan_of_split_none hbuf] at hsplit hover
          rw [← hsplit.1] at hover
          omega
        | cons p pre =>
          simp only [List.cons_append, List.cons.injEq] at hsplit
          obtain ⟨rfl, rfl⟩ := hsplit
          rw [List.flatten_cons, ← List.append_assoc, Wire.scan_append] at hover
          exact ⟨pre, d, post, rfl, hover⟩
      · exact absurd hf hno
    · exact ⟨offers, by rw [List.map_cons, receiveLoop, if_pos (Nat.lt_of_not_le hle)]⟩

end WarpSocks.Masque.Capsule
