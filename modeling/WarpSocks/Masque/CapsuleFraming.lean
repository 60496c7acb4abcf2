import WarpSocks.Masque.CapsuleReceive

/-!
# Capsules and the H2 framing

The declared length of a capsule is checked against `MAX_CAPSULE_BUFFER`, but so is what is buffered together with
the next chunk, before anything of it is parsed.  Up to all but one byte of a capsule can be left over when a full
frame arrives, so a stream is accepted under every framing exactly when each capsule leaves room for that
(`receivePackets_framing`), and there are streams that one framing delivers and another one kills
(`receivePackets_framing_matters`).
-/

namespace WarpSocks.Masque.Capsule

open Wire (Record wireOf scan wireOf_cons wireOf_append)

/-- A framing of a stream: its H2 chunks, none empty and none longer than a frame. -/
structure Framing (stream : List UInt8) where
  chunks : List (List UInt8)
  flatten_chunks : chunks.flatten = stream
  chunk_size : ∀ c ∈ chunks, c ≠ [] ∧ c.length ≤ maxFrameSize

/-- `receive_packets` on a framed stream. -/
def Framing.receive {stream : List UInt8} (f : Framing stream) (w : Nat) (chan : Nat → TrySend) :
    Progress ReceiveError × List (List UInt8) := receivePackets w chan (f.chunks.map .chunk)

/-- Every capsule, together with what can arrive in one frame with its last byte, fits the buffer. -/
def Roomy (rs : List Record) : Prop :=
  ∀ pre r post, rs = pre ++ r :: post →
    r.wire.length + min (maxFrameSize - 1) (wireOf post).length ≤ maxCapsuleBuffer

private theorem fits_wireOf {rs : List Record} (h : ∀ r ∈ rs, r.payload.length ≤ maxCapsuleBuffer) :
    Fits (wireOf rs) := by
  have hnil : Wire.split [] = none := rfl
  have hscan : scan (wireOf rs) = (rs.map Record.content, []) := by
    have := Wire.scan_wireOf rs []
    simpa [Wire.scan_of_split_none hnil] using this
  rw [Fits, hscan]
  constructor
  · simp only [List.mem_map, forall_exists_index, and_imp, forall_apply_eq_imp_iff₂]
    exact h
  · intro kind length rest hh
    cases hh

/-- What is left over when a chunk arrives is an incomplete capsule, and what the chunk adds to it is within its own
size and within the stream. -/
private theorem not_overflows {m : Nat} {rs : List Record} {chunks : List (List UInt8)}
    (hroom : ∀ pre r post, rs = pre ++ r :: post → r.wire.length + min (m - 1) (wireOf post).length ≤
      maxCapsuleBuffer)
    (hflat : chunks.flatten = wireOf rs) (hsize : ∀ c ∈ chunks, c ≠ [] ∧ c.length ≤ m) :
    ¬ Overflows [] chunks := by
  rintro ⟨pre, c, post, rfl, hover⟩
  obtain ⟨hne, hc⟩ := hsize c (by simp)
  rw [List.nil_append] at hover
  obtain ⟨rs₁, hpre, -, ht⟩ := Wire.exists_scan pre.flatten
  obtain ⟨rs₂, tail, hrest, htail⟩ := Wire.exists_records ((scan pre.flatten).2 ++ (c ++ post.flatten))
  have hstream : wireOf rs ++ [] = wireOf (rs₁ ++ rs₂) ++ tail := by
    calc wireOf rs ++ [] = pre.flatten ++ (c ++ post.flatten) := by simp [← hflat]
      _ = wireOf rs₁ ++ ((scan pre.flatten).2 ++ (c ++ post.flatten)) := by
        rw [← List.append_assoc (wireOf rs₁), ← hpre]
      _ = wireOf (rs₁ ++ rs₂) ++ tail := by rw [hrest, wireOf_append, List.append_assoc]
  obtain ⟨hrs, rfl⟩ := Wire.records_unique hstream rfl htail
  rw [List.append_nil] at hrest
  have hlen := congrArg List.length hrest
  have hpos : 0 < c.length := List.length_pos_iff.2 hne
  cases rs₂ with
  | nil =>
    simp only [List.length_append, Wire.wireOf_nil, List.length_nil] at hlen
    omega
  | cons r post' =>
    have hlt := r.length_lt_of_split_none ht hrest
    have := hroom rs₁ r post' hrs
    simp only [List.length_append, wireOf_cons] at hlen
    omega

/-- The chunks of one byte each. -/
private def bytewise (x : List UInt8) : List (List UInt8) := x.map fun b => [b]

@[simp] private theorem flatten_bytewise (x : List UInt8) : (bytewise x).flatten = x := by
  induction x with
  | nil => rfl
  | cons b x ih => simpa [bytewise] using ih

private theorem size_of_mem_bytewise {x c : List UInt8} (h : c ∈ bytewise x) : c ≠ [] ∧ c.length ≤ 1 := by
  obtain ⟨b, -, rfl⟩ := List.mem_map.1 h
  exact ⟨by simp, by simp⟩

/-- Byte by byte. -/
private def bytewiseFraming (stream : List UInt8) : Framing stream where
  chunks := bytewise stream
  flatten_chunks := flatten_bytewise stream
  chunk_size c hc := ⟨(size_of_mem_bytewise hc).1, Nat.le_trans (size_of_mem_bytewise hc).2 (by decide)⟩

/-- Byte by byte up to the last byte of the capsule `r`, which comes in as full a frame as there is. -/
private theorem exists_overflow {pre post : List Record} {r : Record}
    (h : maxCapsuleBuffer < r.wire.length + min (maxFrameSize - 1) (wireOf post).length) :
    ∃ f : Framing (wireOf (pre ++ r :: post)), Overflows [] f.chunks := by
  obtain ⟨b, hb⟩ : ∃ b, r.wire = r.wire.dropLast ++ [b] := ⟨_, (List.dropLast_concat_getLast r.wire_ne_nil).symm⟩
  have hlen : r.wire.length = r.wire.dropLast.length + 1 := by
    conv => lhs; rw [hb]
    simp
  have hmax : 0 < maxFrameSize := by decide
  refine ⟨⟨bytewise (wireOf pre ++ r.wire.dropLast) ++ (b :: wireOf post).take maxFrameSize ::
    bytewise ((b :: wireOf post).drop maxFrameSize), ?_, ?_⟩, _, _, _, rfl, ?_⟩
  · rw [List.flatten_append, List.flatten_cons, flatten_bytewise, flatten_bytewise, List.take_append_drop,
      wireOf_append, wireOf_cons]
    conv => rhs; rw [hb]
    simp
  · intro c hc
    rcases List.mem_append.1 hc with hc | hc
    · exact ⟨(size_of_mem_bytewise hc).1, Nat.le_trans (size_of_mem_bytewise hc).2 (by decide)⟩
    · rcases List.mem_cons.1 hc with rfl | hc
      · rw [← List.length_pos_iff, List.length_take, List.length_cons]
        omega
      · exact ⟨(size_of_mem_bytewise hc).1, Nat.le_trans (size_of_mem_bytewise hc).2 (by decide)⟩
  · rw [List.nil_append, flatten_bytewise, Wire.scan_wireOf, Wire.scan_of_split_none r.split_dropLast]
    simp only [List.length_take, List.length_cons]
    omega

private theorem receive_of_not_overflows {w : Nat} (hw : 32 ≤ w) (chan : Nat → TrySend) {rs : List Record}
    (hlen : ∀ r ∈ rs, r.payload.length ≤ maxCapsuleBuffer) (f : Framing (wireOf rs)) (h : ¬ Overflows [] f.chunks) :
    f.receive w chan = closedOf (offerAll chan [] (packetsOf (wireOf rs))) := by
  rcases receiveLoop_outcome chan hw f.chunks [] [] rfl with hrun | ⟨e, os, -, -, hno | hover⟩
  · rw [List.nil_append, f.flatten_chunks] at hrun
    exact hrun
  · rw [List.nil_append, f.flatten_chunks] at hno
    exact absurd (fits_wireOf hlen) hno
  · exact absurd hover h

private theorem receive_of_overflows {w : Nat} (hw : 32 ≤ w) {rs : List Record}
    (hlen : ∀ r ∈ rs, r.payload.length ≤ maxCapsuleBuffer) (f : Framing (wireOf rs)) (h : Overflows [] f.chunks) :
    (f.receive w fun _ => .ok).1 = .failed .bufferLimit := by
  have hfits : Fits ([] ++ f.chunks.flatten) := by
    rw [List.nil_append, f.flatten_chunks]
    exact fits_wireOf hlen
  obtain ⟨os, hrun⟩ := receiveLoop_overflow (fun _ => .ok) hw (fun _ => by decide) [] [] rfl hfits h
  show (receiveLoop w (fun _ => .ok) (f.chunks.map .chunk) [] []).1 = _
  rw [hrun]

private theorem closedOf_not_limit (outcome : Bool × List (List UInt8)) :
    (closedOf outcome).1 ≠ .failed .bufferLimit ∧ ∀ length, (closedOf outcome).1 ≠ .failed (.lengthLimit length) := by
  unfold closedOf
  split <;> simp

/-- A stream of capsules that pass the length check is accepted under every framing, with the same packets offered,
exactly when it is roomy. -/
theorem receivePackets_framing (w : Nat) (hw : 32 ≤ w) (rs : List Record)
    (hlen : ∀ r ∈ rs, r.payload.length ≤ maxCapsuleBuffer) :
    ((∀ (f : Framing (wireOf rs)) (chan : Nat → TrySend), (f.receive w chan).1 ≠ .failed .bufferLimit ∧
        ∀ length, (f.receive w chan).1 ≠ .failed (.lengthLimit length)) ∧
      ∀ (f g : Framing (wireOf rs)) (chan : Nat → TrySend), (f.receive w chan).2 = (g.receive w chan).2) ↔
    Roomy rs := by
  constructor
  · rintro ⟨hok, -⟩ pre r post rfl
    apply Nat.le_of_not_lt
    intro hover
    obtain ⟨f, hf⟩ := exists_overflow hover
    exact (hok f _).1 (receive_of_overflows hw hlen f hf)
  · intro hroom
    have hrun (f : Framing (wireOf rs)) (chan : Nat → TrySend) :=
      receive_of_not_overflows hw chan hlen f (not_overflows hroom f.flatten_chunks f.chunk_size)
    refine ⟨fun f chan => ?_, fun f g chan => by rw [hrun f, hrun g]⟩
    rw [hrun f chan]
    exact closedOf_not_limit _

private theorem roomy_of_length {rs : List Record} (h : (wireOf rs).length ≤ maxCapsuleBuffer) : Roomy rs := by
  rintro pre r post rfl
  simp only [wireOf_append, wireOf_cons, List.length_append] at h
  omega

/-- A stream of three capsules, two of them with packets. -/
theorem receivePackets_framing_small :
    let capsule (type : Nat) (h : type < 2 ^ 62) : Record := .shortest type [0x45, 0x00] h (by decide)
    let rs := [capsule 0 (by decide), capsule 1 (by decide), capsule 0 (by decide)]
    (∀ r ∈ rs, r.payload.length ≤ maxCapsuleBuffer) ∧
    (∀ (f : Framing (wireOf rs)) (chan : Nat → TrySend), (f.receive 32 chan).1 ≠ .failed .bufferLimit) ∧
    ∀ (f g : Framing (wireOf rs)) (chan : Nat → TrySend), (f.receive 32 chan).2 = (g.receive 32 chan).2 := by
  intro capsule rs
  have hlen : ∀ r ∈ rs, r.payload.length ≤ maxCapsuleBuffer := by
    simp only [rs, List.forall_mem_cons]
    exact ⟨by decide, by decide, by decide, fun _ h => nomatch h⟩
  obtain ⟨hok, hsame⟩ := (receivePackets_framing 32 (by decide) rs hlen).2 (roomy_of_length (by decide))
  exact ⟨hlen, fun f chan => (hok f chan).1, hsame⟩

/-- A capsule of 200000 bytes and behind it an IP packet of 65536 bytes.  Byte by byte the packet is received;
with a full frame at the last byte of the first capsule the stream is refused. -/
theorem receivePackets_framing_matters :
    ∃ (pad pkt : List UInt8) (hpad : pad.length < 2 ^ 62) (hpkt : pkt.length < 2 ^ 62),
      pad.length = 200000 ∧ pkt.length = 65536 ∧
      ∃ f g : Framing (wireOf [.shortest 1 pad (by decide) hpad, .shortest 0 pkt (by decide) hpkt]),
        f.receive 64 (fun _ => .ok) = (.failed .streamClosed, [pkt]) ∧
        (g.receive 64 fun _ => .ok).1 = .failed .bufferLimit := by
  obtain ⟨pad, hpad⟩ : ∃ pad : List UInt8, pad.length = 200000 := ⟨List.replicate 200000 0, List.length_replicate⟩
  obtain ⟨t, ht⟩ : ∃ t : List UInt8, t.length = 65535 := ⟨List.replicate 65535 0, List.length_replicate⟩
  have hpkt : (0x45 :: t).length = 65536 := by rw [List.length_cons, ht]
  have hpad' : pad.length < 2 ^ 62 := by rw [hpad]; decide
  have hpkt' : (0x45 :: t).length < 2 ^ 62 := by rw [hpkt]; decide
  let r₁ := Record.shortest 1 pad (by decide) hpad'
  let r₂ := Record.shortest 0 (0x45 :: t) (by decide) hpkt'
  have hwire₁ : r₁.wire.length = 200005 := by
    show (Wire.Varint.encode 1 ++ (Wire.Varint.encode pad.length ++ pad)).length = _
    rw [hpad, List.length_append, List.length_append, hpad]
    rfl
  have hwire₂ : r₂.wire.length = 65541 := by
    show (Wire.Varint.encode 0 ++ (Wire.Varint.encode (0x45 :: t).length ++ 0x45 :: t)).length = _
    rw [hpkt, List.length_append, List.length_append, hpkt]
    rfl
  have hlen : ∀ r ∈ [r₁, r₂], r.payload.length ≤ maxCapsuleBuffer := by
    simp only [List.forall_mem_cons, List.not_mem_nil, false_implies, implies_true, and_true]
    exact ⟨show pad.length ≤ _ by rw [hpad]; decide, show (0x45 :: t).length ≤ _ by rw [hpkt]; decide⟩
  have hbytewise : ¬ Overflows [] (bytewiseFraming (wireOf [r₁, r₂])).chunks := by
    refine not_overflows (m := 1) (fun pre r post h => ?_) (flatten_bytewise _) fun c => size_of_mem_bytewise
    have hr : r ∈ [r₁, r₂] := by rw [h]; simp
    have hbound : r.wire.length ≤ 200005 := by
      rcases List.mem_cons.1 hr with rfl | hr
      · omega
      · rw [List.mem_singleton.1 hr, hwire₂]; decide
    exact Nat.le_trans (Nat.add_le_add hbound (Nat.min_le_left _ _)) (by decide)
  obtain ⟨g, hg⟩ : ∃ g : Framing (wireOf ([] ++ r₁ :: [r₂])), Overflows [] g.chunks := by
    refine exists_overflow ?_
    have : (wireOf [r₂]).length = 65541 := by rw [wireOf_cons, List.length_append, hwire₂]; rfl
    rw [hwire₁, this]
    decide
  refine ⟨pad, 0x45 :: t, hpad', hpkt', hpad, hpkt, bytewiseFraming _, g, ?_,
    receive_of_overflows (by decide) hlen g hg⟩
  have hnil : Wire.split [] = none := rfl
  have hip : isIp (0x45 :: t) = true := rfl
  rw [receive_of_not_overflows (by decide) _ hlen _ hbytewise, offerAll_open (fun _ => by decide), wireOf_cons,
    packetsOf_wire, wireOf_cons, packetsOf_wire, Wire.wireOf_nil, packetsOf, Wire.scan_of_split_none hnil]
  simp [r₁, r₂, packetOf, Record.content, Record.shortest, stripContext, hip, closedOf]

end WarpSocks.Masque.Capsule
