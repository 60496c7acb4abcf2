import WarpSocks.Masque.Frame

/-!
# The tunnel download is exact

`drain_download` writes the payload of the DATA frames of the received stream and nothing else, however the stream
is cut into reads, and ends well exactly at a frame boundary (`drainDownload_exact`).  The proof gives each of the
reading functions one equation in terms of the bytes still to come: `readVarintOrEof` reads one `Wire.Varint`,
`drainPayload` takes the payload, so one round of the outer loop takes one `Wire.Record` off the stream
(`drainDownload_wire`) and the rounds follow the split of the stream into records.
-/

namespace WarpSocks.Masque

open Wire (Reader Writer Record Segmentation wireOf weave wireOf_nil wireOf_cons)
open Wire.Varint (decode)

/-! ### Reading one integer -/

private theorem shift_eq_size (b : UInt8) : 1 <<< (b >>> 6).toNat = Wire.Varint.size b := by
  rw [Nat.one_shiftLeft, Wire.Varint.size]
  simp [UInt8.toNat_shiftRight, Nat.shiftRight_eq_div_pow]

private theorem readVarintOrEof_nil {recv : Reader IoError} (h : recv.bytes = []) :
    readVarintOrEof recv = (match recv.fault with | none => .ok none | some e => .error e, recv) := by
  unfold readVarintOrEof
  rw [Reader.read_of_nil (by decide) h]
  cases recv.fault <;> rfl

private theorem read_one {recv : Reader IoError} {b : UInt8} {bs : List UInt8} (h : recv.bytes = b :: bs) :
    ∃ recv' : Reader IoError, recv.read 1 = (.ok [b], recv') ∧ recv'.bytes = bs ∧ recv'.fault = recv.fault := by
  obtain ⟨x, y, hx, hlen, hxy, r', hread, hb, hf⟩ :=
    Reader.read_of_ne_nil (n := 1) (r := recv) (by decide) (by rw [h]; simp)
  obtain ⟨c, x, rfl⟩ := List.exists_cons_of_ne_nil hx
  obtain rfl : x = [] := List.length_eq_zero_iff.1 (by simp only [List.length_cons] at hlen; omega)
  rw [h] at hxy
  simp only [List.cons_append, List.nil_append, List.cons.injEq] at hxy
  obtain ⟨rfl, rfl⟩ := hxy
  exact ⟨r', hread, hb, hf⟩

private theorem readVarintOrEof_some {recv : Reader IoError} {v : Nat} {rest : List UInt8}
    (h : decode recv.bytes = some (v, rest)) :
    ∃ recv' : Reader IoError,
      readVarintOrEof recv = (.ok (some v), recv') ∧ recv'.bytes = rest ∧ recv'.fault = recv.fault := by
  obtain ⟨b, x, hbytes, hx, hv⟩ := Wire.Varint.decode_eq_some h
  obtain ⟨r₁, h₁, hb₁, hf₁⟩ := read_one (show recv.bytes = b :: (x ++ rest) by simpa using hbytes)
  obtain ⟨r₂, h₂, hb₂, hf₂⟩ := Reader.readExact_of_le earlyEof x rest r₁ hb₁
  have hd : decode (b :: x) = some (v, []) := by
    have := Wire.Varint.decode_cons b hx []
    rwa [List.append_nil, ← hv] at this
  have hlen : Wire.Varint.size b - 1 = x.length := by omega
  refine ⟨r₂, ?_, hb₂, hf₂.trans hf₁⟩
  simp only [readVarintOrEof, h₁, shift_eq_size, hlen, h₂, read_eq, hd, Option.map_some]

private theorem readVarintOrEof_cut {recv : Reader IoError} (hne : recv.bytes ≠ [])
    (h : decode recv.bytes = none) :
    ∃ recv' : Reader IoError, readVarintOrEof recv = (.error (recv.fault.getD earlyEof), recv') := by
  obtain ⟨b, bs, hbytes⟩ := List.exists_cons_of_ne_nil hne
  rw [hbytes, Wire.Varint.decode_eq_none_iff] at h
  obtain ⟨r₁, h₁, hb₁, hf₁⟩ := read_one hbytes
  obtain ⟨r₂, h₂⟩ := Reader.readExact_of_lt earlyEof (Wire.Varint.size b - 1) r₁ (by rw [hb₁]; omega)
  refine ⟨r₂, ?_⟩
  simp only [readVarintOrEof, h₁, shift_eq_size, h₂, hf₁]

theorem readVarint_some {recv : Reader IoError} {v : Nat} {rest : List UInt8}
    (h : decode recv.bytes = some (v, rest)) :
    ∃ recv' : Reader IoError,
      readVarint recv = (.ok v, recv') ∧ recv'.bytes = rest ∧ recv'.fault = recv.fault := by
  obtain ⟨r', h', hb, hf⟩ := readVarintOrEof_some h
  exact ⟨r', by simp only [readVarint, h'], hb, hf⟩

theorem readVarint_cut {recv : Reader IoError} (h : decode recv.bytes = none) :
    ∃ e recv', readVarint recv = (.error e, recv') ∧ (recv.fault = none → e.kind = .unexpectedEof) := by
  by_cases hne : recv.bytes = []
  · cases hf : recv.fault with
    | none =>
      refine ⟨⟨.unexpectedEof, "H3 帧头意外结束"⟩, recv, ?_, fun _ => rfl⟩
      simp only [readVarint, readVarintOrEof_nil hne, hf]
    | some e =>
      refine ⟨e, recv, ?_, fun h => nomatch h⟩
      simp only [readVarint, readVarintOrEof_nil hne, hf]
  · obtain ⟨r', h'⟩ := readVarintOrEof_cut hne h
    refine ⟨recv.fault.getD earlyEof, r', ?_, fun hf => by rw [hf]; rfl⟩
    simp only [readVarint, h']

/-! ### The payload of one frame -/

/-- What a frame of the given type contributes to the tunnel. -/
def delivered (frameType : Nat) (payload : List UInt8) : List UInt8 := if frameType = 0x00 then payload else []

private theorem delivered_append (frameType : Nat) (x y : List UInt8) :
    delivered frameType (x ++ y) = delivered frameType x ++ delivered frameType y := by
  unfold delivered; split <;> simp

private theorem drainPayload_step {frameType remaining : Nat} {recv recv' : Reader IoError} {w : List UInt8}
    {b : UInt8} {bs : List UInt8} (hpos : remaining ≠ 0)
    (h : recv.read (min remaining relayBuf) = (.ok (b :: bs), recv')) :
    drainPayload frameType remaining recv ⟨w, none⟩ =
      drainPayload frameType (remaining - (bs.length + 1)) recv' ⟨w ++ delivered frameType (b :: bs), none⟩ := by
  rw [drainPayload, if_neg hpos, h]
  by_cases hft : frameType = 0x00
  · simp only [hft, ↓reduceIte, Writer.writeAll_of_none, delivered]
  · simp only [hft, ↓reduceIte, delivered, List.append_nil]

theorem drainPayload_complete (frameType : Nat) (p : List UInt8) : ∀ (w y : List UInt8)
    (recv : Reader IoError), recv.bytes = p ++ y →
    ∃ recv' : Reader IoError, drainPayload frameType p.length recv ⟨w, none⟩ =
      (.ok (), recv', ⟨w ++ delivered frameType p, none⟩) ∧ recv'.bytes = y ∧ recv'.fault = recv.fault := by
  induction h : p.length using Nat.strongRecOn generalizing p with
  | ind n ih =>
    intro w y recv hr
    by_cases hn : n = 0
    · obtain rfl : p = [] := List.length_eq_zero_iff.1 (by omega)
      refine ⟨recv, ?_, hr, rfl⟩
      rw [drainPayload, if_pos hn]
      unfold delivered; simp
    · have hmin : 0 < min n relayBuf := by unfold relayBuf; omega
      obtain ⟨b, bs, q, rfl, hle, r', hread, hb, hf⟩ := Reader.read_prefix hr hmin (by omega)
      simp only [List.length_append, List.length_cons] at h
      obtain ⟨r'', hrun, hb', hf'⟩ := ih q.length (by omega) q rfl (w ++ delivered frameType (b :: bs)) y r' hb
      refine ⟨r'', ?_, hb', hf'.trans hf⟩
      rw [drainPayload_step hn hread, show n - (bs.length + 1) = q.length by omega, hrun, delivered_append,
        List.append_assoc]

theorem drainPayload_cut (frameType : Nat) (n : Nat) : ∀ (w : List UInt8) (recv : Reader IoError),
    recv.bytes.length < n →
    ∃ e recv', drainPayload frameType n recv ⟨w, none⟩ =
      (.error e, recv', ⟨w ++ delivered frameType recv.bytes, none⟩) ∧
        (recv.fault = none → e.kind = .unexpectedEof) := by
  induction n using Nat.strongRecOn with
  | ind n ih =>
    intro w recv hlt
    have hn : n ≠ 0 := by omega
    by_cases hne : recv.bytes = []
    · have hnil : w ++ delivered frameType [] = w := by unfold delivered; simp
      cases hf : recv.fault with
      | none =>
        refine ⟨⟨.unexpectedEof, "H3 帧负载意外结束"⟩, recv, ?_, fun _ => rfl⟩
        rw [drainPayload, if_neg hn, Reader.read_of_nil (by unfold relayBuf; omega) hne, hf, hne, hnil]
      | some e =>
        refine ⟨e, recv, ?_, fun h => absurd h (Option.some_ne_none e)⟩
        rw [drainPayload, if_neg hn, Reader.read_of_nil (by unfold relayBuf; omega) hne, hf, hne, hnil]
    · have hmin : 0 < min n relayBuf := by unfold relayBuf; omega
      obtain ⟨u, v, hu, hle, hbv, r', hread, hb, hf⟩ := Reader.read_of_ne_nil hmin hne
      obtain ⟨b, bs, rfl⟩ := List.exists_cons_of_ne_nil hu
      have hlen := congrArg List.length hbv
      simp only [List.length_append, List.length_cons] at hlen
      obtain ⟨e, r'', hrun, hk⟩ := ih (n - (bs.length + 1)) (by omega) (w ++ delivered frameType (b :: bs)) r'
        (by rw [hb]; omega)
      refine ⟨e, r'', ?_, fun hfault => hk (hf.trans hfault)⟩
      rw [drainPayload_step hn hread, hrun, hbv, hb, delivered_append, List.append_assoc]

/-! ### The whole stream -/

/-- The payload bytes of the DATA frames among `rs`, in order. -/
def dataOf (rs : List Record) : List UInt8 := rs.flatMap fun r => delivered r.kind r.payload

/-- `Truncated tail d`: the bytes `tail` end inside a frame, after `d` bytes of DATA payload. -/
inductive Truncated : List UInt8 → List UInt8 → Prop where
  | inType {tail : List UInt8} (hne : tail ≠ []) (htype : decode tail = none) : Truncated tail []
  | inLength {tail r : List UInt8} {frameType : Nat} (htype : decode tail = some (frameType, r))
      (hlen : decode r = none) : Truncated tail []
  | inPayload {tail r payload : List UInt8} {frameType len : Nat} (htype : decode tail = some (frameType, r))
      (hlen : decode r = some (len, payload)) (hlt : payload.length < len) :
      Truncated tail (delivered frameType payload)

/-- An incomplete tail is empty or ends inside a frame. -/
private theorem truncated_of_split {tail : List UInt8} (h : Wire.split tail = none) :
    tail = [] ∨ ∃ d, Truncated tail d := by
  by_cases hne : tail = []
  · exact .inl hne
  · right
    rcases Wire.split_eq_none_cases h with h₁ | ⟨_, _, h₁, h₂⟩ | ⟨_, _, _, _, h₁, h₂, hlt⟩
    · exact ⟨_, .inType hne h₁⟩
    · exact ⟨_, .inLength h₁ h₂⟩
    · exact ⟨_, .inPayload h₁ h₂ hlt⟩

/-- One round of the loop takes one complete frame. -/
private theorem drainDownload_wire (r : Record) {recv : Reader IoError} {w y : List UInt8}
    (h : recv.bytes = r.wire ++ y) :
    ∃ recv' : Reader IoError, drainDownload recv ⟨w, none⟩ =
      drainDownload recv' ⟨w ++ delivered r.kind r.payload, none⟩ ∧ recv'.bytes = y ∧
        recv'.fault = recv.fault := by
  obtain ⟨x, hx₁, hx₂⟩ := r.spells
  have hd₁ := Wire.Varint.decode_append hx₁ y
  have hd₂ := Wire.Varint.decode_append hx₂ y
  rw [← h] at hd₁
  obtain ⟨r₁, h₁, hb₁, hf₁⟩ := readVarintOrEof_some hd₁
  rw [← hb₁] at hd₂
  obtain ⟨r₂, h₂, hb₂, hf₂⟩ := readVarint_some hd₂
  obtain ⟨r₃, h₃, hb₃, hf₃⟩ := drainPayload_complete r.kind r.payload w y r₂ hb₂
  refine ⟨r₃, ?_, hb₃, hf₃.trans (hf₂.trans hf₁)⟩
  rw [drainDownload_eq]
  simp only [h₁, h₂, h₃]

private theorem drainDownload_wireOf (rs : List Record) {y : List UInt8} : ∀ (recv : Reader IoError)
    (w : List UInt8), recv.bytes = wireOf rs ++ y →
    ∃ recv' : Reader IoError, drainDownload recv ⟨w, none⟩ = drainDownload recv' ⟨w ++ dataOf rs, none⟩ ∧
      recv'.bytes = y ∧ recv'.fault = recv.fault := by
  induction rs with
  | nil => intro recv w h; exact ⟨recv, by simp [dataOf], h, rfl⟩
  | cons r rs ih =>
    intro recv w h
    rw [wireOf_cons, List.append_assoc] at h
    obtain ⟨r₁, h₁, hb₁, hf₁⟩ := drainDownload_wire r (w := w) h
    obtain ⟨r₂, h₂, hb₂, hf₂⟩ := ih r₁ (w ++ delivered r.kind r.payload) hb₁
    refine ⟨r₂, ?_, hb₂, hf₂.trans hf₁⟩
    rw [h₁, h₂, List.append_assoc]
    rfl

private theorem drainDownload_nil {recv : Reader IoError} (w : List UInt8) (h : recv.bytes = [])
    (hf : recv.fault = none) : drainDownload recv ⟨w, none⟩ = (.ok (), recv, ⟨w, none⟩) := by
  rw [drainDownload_eq]
  simp only [readVarintOrEof_nil h, hf]

private theorem drainDownload_fault {recv : Reader IoError} (w : List UInt8) (h : recv.bytes = []) {e : IoError}
    (hf : recv.fault = some e) : drainDownload recv ⟨w, none⟩ = (.error e, recv, ⟨w, none⟩) := by
  rw [drainDownload_eq]
  simp only [readVarintOrEof_nil h, hf]

private theorem drainDownload_truncated {recv : Reader IoError} {d : List UInt8} (w : List UInt8)
    (h : Truncated recv.bytes d) :
    ∃ e recv', drainDownload recv ⟨w, none⟩ = (.error e, recv', ⟨w ++ d, none⟩) ∧
      (recv.fault = none → e.kind = .unexpectedEof) := by
  generalize htail : recv.bytes = tail at h
  cases h with
  | inType hne htype =>
    subst htail
    obtain ⟨r', h'⟩ := readVarintOrEof_cut hne htype
    refine ⟨recv.fault.getD earlyEof, r', ?_, fun hf => by rw [hf]; rfl⟩
    rw [drainDownload_eq]
    simp only [h', List.append_nil]
  | inLength htype hlen =>
    subst htail
    obtain ⟨r₁, h₁, hb₁, hf₁⟩ := readVarintOrEof_some htype
    rw [← hb₁] at hlen
    obtain ⟨e, r₂, h₂, hk⟩ := readVarint_cut hlen
    refine ⟨e, r₂, ?_, fun hf => hk (hf₁.trans hf)⟩
    rw [drainDownload_eq]
    simp only [h₁, h₂, List.append_nil]
  | @inPayload _ payload frameType len htype hlen hlt =>
    subst htail
    obtain ⟨r₁, h₁, hb₁, hf₁⟩ := readVarintOrEof_some htype
    rw [← hb₁] at hlen
    obtain ⟨r₂, h₂, hb₂, hf₂⟩ := readVarint_some hlen
    obtain ⟨e, r₃, h₃, hk⟩ := drainPayload_cut frameType len w r₂ (by rw [hb₂]; exact hlt)
    refine ⟨e, r₃, ?_, fun hf => hk (hf₂.trans (hf₁.trans hf))⟩
    rw [drainDownload_eq]
    simp only [h₁, h₂, h₃, hb₂]

/-! ### Uploaded chunks come back -/

private theorem exists_dataFrame {c : List UInt8} (hc : c.length ≤ relayBuf) :
    ∃ r : Record, dataFrame [] c = some r.wire ∧ r.content = (0x00, c) := by
  have hlen : c.length < 2 ^ 62 := Nat.lt_of_le_of_lt hc (by decide)
  refine ⟨.shortest 0x00 c (by decide) hlen, ?_, rfl⟩
  rw [dataFrame, writeFrame, write_of_lt [] (by decide)]
  simp only [write_of_lt _ hlen]
  rfl

/-- The frames of the chunks, as records. -/
private theorem exists_dataFrames {cs : List (List UInt8)} (h : ∀ c ∈ cs, c ≠ [] ∧ c.length ≤ relayBuf) :
    ∃ rs : List Record, cs.mapM (dataFrame []) = some (rs.map Record.wire) ∧
      rs.map Record.content = cs.map (fun c => (0x00, c)) := by
  induction cs with
  | nil => exact ⟨[], rfl, rfl⟩
  | cons c cs ih =>
    obtain ⟨r, hr, hc⟩ := exists_dataFrame (h c (by simp)).2
    obtain ⟨rs, hrs, hcs⟩ := ih fun d hd => h d (by simp [hd])
    exact ⟨r :: rs, by simp [List.mapM_cons, hr, hrs], by simp [hc, hcs]⟩

private theorem drainUpload_chunks {cs fs : List (List UInt8)} (h : ∀ c ∈ cs, c ≠ [] ∧ c.length ≤ relayBuf)
    (hfs : cs.mapM (dataFrame []) = some fs) (w : List UInt8) :
    drainUpload (.ofChunks cs) ⟨w, none⟩ = some (.ok (), .ofChunks [], ⟨w ++ fs.flatten, none⟩) := by
  induction cs generalizing fs w with
  | nil =>
    obtain rfl : fs = [] := by simpa using hfs.symm
    rw [drainUpload_eq, Reader.read_ofChunks_nil]
    simp
  | cons c cs ih =>
    have hc := h c (by simp)
    obtain ⟨r, hr, -⟩ := exists_dataFrame hc.2
    obtain ⟨rs, hrs, -⟩ := exists_dataFrames fun d hd => h d (List.mem_cons_of_mem _ hd)
    obtain ⟨b, bs, rfl⟩ := List.exists_cons_of_ne_nil hc.1
    obtain rfl : fs = r.wire :: rs.map Record.wire := by simpa [List.mapM_cons, hr, hrs] using hfs.symm
    rw [drainUpload_eq, Reader.read_ofChunks_cons cs hc.1 hc.2]
    simp only [hr, Writer.writeAll_of_none]
    rw [ih (fun d hd => h d (List.mem_cons_of_mem _ hd)) hrs, List.flatten_cons, List.append_assoc]

private theorem dataOf_contents {rs : List Record} {cs : List (List UInt8)}
    (h : rs.map Record.content = cs.map fun c => (0x00, c)) : dataOf rs = cs.flatten := by
  induction rs generalizing cs with
  | nil =>
    cases cs with
    | nil => rfl
    | cons c cs => simp at h
  | cons r rs ih =>
    cases cs with
    | nil => simp at h
    | cons c cs =>
      simp only [List.map_cons, List.cons.injEq, Record.content, Prod.mk.injEq] at h
      have := ih h.2
      simp only [dataOf, List.flatMap_cons, List.flatten_cons] at this ⊢
      rw [this, h.1.1, h.1.2]
      rfl

private theorem drainDownload_complete {stream : List UInt8} (seg : Segmentation) {rs : List Record}
    (h : stream = wireOf rs) : ∃ recv, drainDownload ⟨stream, seg, none⟩ ⟨[], none⟩ =
      (.ok (), recv, ⟨dataOf rs, none⟩) := by
  obtain ⟨r', hrun, hb, hf⟩ := drainDownload_wireOf rs (y := []) ⟨stream, seg, none⟩ [] (by simpa using h)
  exact ⟨r', by rw [hrun, drainDownload_nil _ hb hf, List.nil_append]⟩

private theorem drainDownload_cut {stream tail d : List UInt8} (seg : Segmentation) {rs : List Record}
    (h : stream = wireOf rs ++ tail) (ht : Truncated tail d) :
    ∃ e recv, drainDownload ⟨stream, seg, none⟩ ⟨[], none⟩ = (.error e, recv, ⟨dataOf rs ++ d, none⟩) ∧
      e.kind = .unexpectedEof := by
  obtain ⟨r', hrun, hb, hf⟩ := drainDownload_wireOf rs ⟨stream, seg, none⟩ [] h
  obtain ⟨e, r'', hcut, hk⟩ := drainDownload_truncated (dataOf rs) (by rw [hb]; exact ht)
  exact ⟨e, r'', by rw [hrun, List.nil_append, hcut], hk hf⟩

/-- The bytes carry the DATA payload `p`: that of their complete frames, and what there is of a last one. -/
def Carries (stream p : List UInt8) : Prop :=
  ∃ rs tail d, stream = wireOf rs ++ tail ∧ (tail = [] ∧ d = [] ∨ Truncated tail d) ∧ p = dataOf rs ++ d

theorem exists_carries (stream : List UInt8) : ∃ p, Carries stream p := by
  obtain ⟨rs, tail, hs, ht⟩ := Wire.exists_records stream
  rcases truncated_of_split ht with rfl | ⟨d, hd⟩
  · exact ⟨_, rs, [], [], hs, .inl ⟨rfl, rfl⟩, rfl⟩
  · exact ⟨_, rs, tail, d, hs, .inr hd, rfl⟩

/-- Also from a stream that fails, the download writes the payload there is, and it ends well only if the stream
ended well behind complete frames. -/
theorem drainDownload_carries (recv : Reader IoError) {p : List UInt8} (h : Carries recv.bytes p) (w : List UInt8) :
    (drainDownload recv ⟨w, none⟩).2.2.written = w ++ p ∧
      ((drainDownload recv ⟨w, none⟩).1 = .ok () → recv.fault = none ∧ ∃ rs, recv.bytes = wireOf rs) := by
  obtain ⟨rs, tail, d, hs, htail, rfl⟩ := h
  obtain ⟨r', hrun, hb, hf⟩ := drainDownload_wireOf rs recv w hs
  rw [hrun, ← List.append_assoc]
  rcases htail with ⟨rfl, rfl⟩ | ht
  · cases hfault : recv.fault with
    | none =>
      rw [drainDownload_nil _ hb (hf.trans hfault), List.append_nil]
      exact ⟨rfl, fun _ => ⟨rfl, rs, hs.trans (List.append_nil _)⟩⟩
    | some e =>
      rw [drainDownload_fault _ hb (hf.trans hfault), List.append_nil]
      exact ⟨rfl, fun h => nomatch h⟩
  · obtain ⟨e, r'', hcut, _⟩ := drainDownload_truncated (w ++ dataOf rs) (by rw [hb]; exact ht)
    rw [hcut]
    exact ⟨rfl, fun h => nomatch h⟩

/-- The download is exact.  Every stream is a sequence of complete frames or ends inside a frame behind such a
sequence; in the first case `drain_download` ends well and has written the DATA payloads, in the second it fails and
has written them and what arrived of a last DATA payload.  So the frames `drain_upload` makes of any chunks, with
other frames inserted anywhere between them, are downloaded as the chunks. -/
theorem drainDownload_exact :
    (∀ (stream : List UInt8) (seg : Segmentation),
      ((drainDownload ⟨stream, seg, none⟩ ⟨[], none⟩).1 = .ok () ↔ ∃ rs, stream = wireOf rs) ∧
      (∀ rs, stream = wireOf rs → (drainDownload ⟨stream, seg, none⟩ ⟨[], none⟩).2.2.written = dataOf rs) ∧
      (∀ rs tail d, stream = wireOf rs ++ tail → Truncated tail d →
        (∃ e, (drainDownload ⟨stream, seg, none⟩ ⟨[], none⟩).1 = .error e ∧ e.kind = .unexpectedEof) ∧
        (drainDownload ⟨stream, seg, none⟩ ⟨[], none⟩).2.2.written = dataOf rs ++ d) ∧
      ((∃ rs, stream = wireOf rs) ∨ ∃ rs tail d, stream = wireOf rs ++ tail ∧ Truncated tail d)) ∧
    (∀ chunks : List (List UInt8), (∀ c ∈ chunks, 1 ≤ c.length ∧ c.length ≤ 65536) →
      ∃ frames, chunks.mapM (dataFrame []) = some frames ∧
        drainUpload (.ofChunks chunks) ⟨[], none⟩ = some (.ok (), .ofChunks [], ⟨frames.flatten, none⟩) ∧
        ∀ (gaps : Nat → List Record) (seg : Segmentation), (∀ i, ∀ r ∈ gaps i, r.kind ≠ 0) →
          (drainDownload ⟨weave gaps frames, seg, none⟩ ⟨[], none⟩).1 = .ok () ∧
          (drainDownload ⟨weave gaps frames, seg, none⟩ ⟨[], none⟩).2.2.written = chunks.flatten) := by
  constructor
  · intro stream seg
    have hcases : (∃ rs, stream = wireOf rs) ∨ ∃ rs tail d, stream = wireOf rs ++ tail ∧ Truncated tail d := by
      obtain ⟨rs, tail, hs, ht⟩ := Wire.exists_records stream
      rcases truncated_of_split ht with rfl | ⟨d, hd⟩
      · exact .inl ⟨rs, by simpa using hs⟩
      · exact .inr ⟨rs, tail, d, hs, hd⟩
    refine ⟨⟨fun hok => ?_, fun ⟨rs, h⟩ => ?_⟩, fun rs h => ?_, fun rs tail d h ht => ?_, hcases⟩
    · rcases hcases with h | ⟨rs, tail, d, h, ht⟩
      · exact h
      · obtain ⟨e, recv, hrun, -⟩ := drainDownload_cut seg h ht
        rw [hrun] at hok
        cases hok
    · obtain ⟨recv, hrun⟩ := drainDownload_complete seg h
      rw [hrun]
    · obtain ⟨recv, hrun⟩ := drainDownload_complete seg h
      rw [hrun]
    · obtain ⟨e, recv, hrun, hk⟩ := drainDownload_cut seg h ht
      rw [hrun]
      exact ⟨⟨e, rfl, hk⟩, rfl⟩
  · intro chunks hchunks
    have h : ∀ c ∈ chunks, c ≠ [] ∧ c.length ≤ relayBuf := fun c hc =>
      ⟨List.ne_nil_of_length_pos (hchunks c hc).1, (hchunks c hc).2⟩
    obtain ⟨rs, hrs, hcs⟩ := exists_dataFrames h
    refine ⟨rs.map Record.wire, hrs, by simpa using drainUpload_chunks h hrs [], fun gaps seg hg => ?_⟩
    obtain ⟨ss, hw, hd⟩ := Wire.exists_weave (fun r => delivered r.kind r.payload) rs fun i r hr => if_neg (hg i r hr)
    obtain ⟨recv, hrun⟩ := drainDownload_complete seg hw
    rw [hrun, ← dataOf_contents hcs]
    exact ⟨rfl, hd⟩

/-- Two uploaded chunks come back one behind the other, read byte by byte. -/
theorem drainDownload_exact_two_chunks :
    (∀ c ∈ [[0x68, 0x69], [(0x21 : UInt8)]], 1 ≤ c.length ∧ c.length ≤ 65536) ∧
    ∃ frames, [[0x68, 0x69], [0x21]].mapM (dataFrame []) = some frames ∧
      (drainDownload ⟨weave (fun _ => []) frames, ⟨fun _ => 1, fun _ => by decide⟩, none⟩ ⟨[], none⟩).2.2.written =
        [0x68, 0x69, 0x21] := by
  have hlen : ∀ c ∈ [[0x68, 0x69], [(0x21 : UInt8)]], 1 ≤ c.length ∧ c.length ≤ 65536 := by decide
  obtain ⟨frames, hframes, -, hdown⟩ := drainDownload_exact.2 [[0x68, 0x69], [0x21]] hlen
  exact ⟨hlen, frames, hframes, (hdown _ _ (fun _ r hr => by cases hr)).2⟩

end WarpSocks.Masque
