import WarpSocks.Machine.Action
import WarpSocks.Masque.Download
import WarpSocks.Masque.QpackExact
import WarpSocks.Masque.Request

/-!
# The CONNECT exchange

`exchange` sends the request and looks for the HEADERS frame of the response, behind at most seven other frames.
The stream is read frame by frame: a complete frame is taken off whatever its length (`recvHeader_wire`,
`discardFrame_complete`), and an incomplete one is an error (`readResponse_cut`), so that what is left behind the
response is what `drain_download` starts with.
-/

namespace WarpSocks.Masque

open Machine (Action)
open Wire (Reader Writer Record wireOf)

def MAX_SKIPPED_FRAMES : Nat := 8

def MAX_HEADERS_FRAME_SIZE : Nat := 64 * 1024

/-- A fallible action on the receive side of the stream. -/
abbrev RecvM (α : Type) := Action Chain (Reader IoError) α

/-- `read_varint(recv).await?`. -/
def recvVarint : RecvM Nat := fun recv =>
  match readVarint recv with
  | (.ok v, recv) => (.ok v, recv)
  | (.error e, recv) => (.error [e.msg], recv)

/-- `recv.read_exact`, of quinn, with a context. -/
def recvExact (context : String) (n : Nat) : RecvM (List UInt8) := fun recv =>
  match recv.readExact ⟨.unexpectedEof, s!"stream finished early ({recv.bytes.length} bytes read)"⟩ n with
  | (.ok bytes, recv) => (.ok bytes, recv)
  | (.error e, recv) => (.error [context, e.msg], recv)

/-- `checked_headers_len`, on a machine with `w`-bit words. -/
def checkedHeadersLen (w len : Nat) : Except Chain Nat :=
  if 2 ^ w ≤ len then .error ["HEADERS frame 长度超出平台上限", "out of range integral type conversion attempted"]
  else if MAX_HEADERS_FRAME_SIZE < len then .error [s!"CONNECT 响应 HEADERS frame 过大: {len}"]
  else .ok len

/-- `discard_frame`. -/
def discardFrame (remaining : Nat) : RecvM Unit :=
  if remaining = 0 then pure ()
  else do
    let chunk := min remaining relayBuf
    let _ ← recvExact "跳过未知帧失败" chunk
    discardFrame (remaining - chunk)
termination_by remaining
decreasing_by unfold relayBuf; omega

/-- The loop of `exchange`, for the number of frames it still looks at: the payload of the HEADERS frame. -/
def readResponse (w : Nat) : Nat → RecvM (List UInt8)
  | 0 => throw [s!"连续 {MAX_SKIPPED_FRAMES} 个非 HEADERS 帧后仍未收到响应"]
  | n + 1 => do
    let frameType ← recvVarint
    let len ← recvVarint
    if frameType = 0x01 then
      match checkedHeadersLen w len with
      | .error e => throw e
      | .ok len => recvExact "读取 CONNECT 响应失败" len
    else
      discardFrame len
      readResponse w n

/-- What `exchange` makes of the payload. -/
def checkResponse (w : Nat) (payload : List UInt8) : Except Chain (Option String) :=
  match Qpack.decodeHeaders w payload with
  | .error e => .error [e]
  | .ok headers =>
    if headers.status ≠ 200 then .error [s!"边缘拒绝 CONNECT，状态 {headers.status}"]
    else .ok headers.colo

/-- The receiving part of `exchange`. -/
def receiveResponse (w : Nat) : RecvM (Option String) := do
  let payload ← readResponse w MAX_SKIPPED_FRAMES
  match checkResponse w payload with
  | .error e => throw e
  | .ok colo => return colo

/-- `exchange`.  A request whose length is no variable-length integer makes `headers_frame` panic. -/
def exchange (w : Nat) (authority token : String) (send : Writer IoError) (recv : Reader IoError) :
    Option (Except Chain (Option String) × Writer IoError × Reader IoError) :=
  match headersFrame (Qpack.encodeConnectRequest authority token) with
  | none => none
  | some headers =>
    match send.writeAll headers with
    | (.error e, send) => some (.error ["发送 CONNECT 头失败", e.msg], send, recv)
    | (.ok (), send) =>
      let (result, recv) := receiveResponse w recv
      some (result, send, recv)

section Reading

variable {recv : Reader IoError}

private theorem recvVarint_some {v : Nat} {rest : List UInt8} (h : Wire.Varint.decode recv.bytes = some (v, rest)) :
    ∃ recv' : Reader IoError, recvVarint recv = (.ok v, recv') ∧ recv'.bytes = rest ∧ recv'.fault = recv.fault := by
  obtain ⟨recv', hread, hb, hf⟩ := readVarint_some h
  exact ⟨recv', by simp only [recvVarint, hread], hb, hf⟩

private theorem recvVarint_cut (h : Wire.Varint.decode recv.bytes = none) :
    ∃ e recv', recvVarint recv = (.error e, recv') := by
  obtain ⟨e, recv', hread, -⟩ := readVarint_cut h
  exact ⟨[e.msg], recv', by simp only [recvVarint, hread]⟩

private theorem recvExact_of_le (context : String) {x y : List UInt8} (h : recv.bytes = x ++ y) :
    ∃ recv' : Reader IoError, recvExact context x.length recv = (.ok x, recv') ∧ recv'.bytes = y ∧
      recv'.fault = recv.fault := by
  obtain ⟨recv', hread, hb, hf⟩ := Reader.readExact_of_le
    ⟨.unexpectedEof, s!"stream finished early ({recv.bytes.length} bytes read)"⟩ x y recv h
  exact ⟨recv', by simp only [recvExact, hread], hb, hf⟩

private theorem recvExact_of_lt (context : String) {n : Nat} (h : recv.bytes.length < n) :
    ∃ e recv', recvExact context n recv = (.error e, recv') := by
  obtain ⟨recv', hread⟩ := Reader.readExact_of_lt
    ⟨.unexpectedEof, s!"stream finished early ({recv.bytes.length} bytes read)"⟩ n recv h
  exact ⟨_, recv', by simp only [recvExact, hread]; rfl⟩

/-- The type and the length of a frame. -/
theorem recvHeader_wire (r : Record) {y : List UInt8} (h : recv.bytes = r.wire ++ y) :
    ∃ recv₁ recv₂ : Reader IoError, recvVarint recv = (.ok r.kind, recv₁) ∧
      recvVarint recv₁ = (.ok r.payload.length, recv₂) ∧ recv₂.bytes = r.payload ++ y ∧ recv₂.fault = recv.fault := by
  obtain ⟨x, hkind, hlen⟩ := r.spells
  have hkind := Wire.Varint.decode_append hkind y
  have hlen := Wire.Varint.decode_append hlen y
  rw [← h] at hkind
  obtain ⟨recv₁, h₁, hb₁, hf₁⟩ := recvVarint_some hkind
  rw [← hb₁] at hlen
  obtain ⟨recv₂, h₂, hb₂, hf₂⟩ := recvVarint_some hlen
  exact ⟨recv₁, recv₂, h₁, h₂, hb₂, hf₂.trans hf₁⟩

/-- `discard_frame` passes over a payload, one buffer after the other. -/
theorem discardFrame_complete (p y : List UInt8) (h : recv.bytes = p ++ y) :
    ∃ recv' : Reader IoError, discardFrame p.length recv = (.ok (), recv') ∧ recv'.bytes = y ∧
      recv'.fault = recv.fault := by
  induction hn : p.length using Nat.strongRecOn generalizing p recv with
  | ind n ih =>
    rw [discardFrame]
    by_cases hzero : n = 0
    · obtain rfl : p = [] := List.length_eq_zero_iff.1 (by omega)
      rw [if_pos hzero]
      exact ⟨recv, rfl, h, rfl⟩
    · have hbuf : 0 < relayBuf := by decide
      have hchunk : (p.take (min n relayBuf)).length = min n relayBuf := by rw [List.length_take]; omega
      have hsplit : recv.bytes = p.take (min n relayBuf) ++ (p.drop (min n relayBuf) ++ y) := by
        rw [← List.append_assoc, List.take_append_drop, h]
      obtain ⟨recv₁, h₁, hb₁, hf₁⟩ := recvExact_of_le "跳过未知帧失败" hsplit
      rw [hchunk] at h₁
      obtain ⟨recv₂, h₂, hb₂, hf₂⟩ := ih (n - min n relayBuf) (by omega) (p.drop (min n relayBuf)) hb₁
        (by rw [List.length_drop, hn])
      rw [if_neg hzero]
      exact ⟨recv₂, (Action.bind_ok h₁).trans h₂, hb₂, hf₂.trans hf₁⟩

private theorem discardFrame_cut {n : Nat} (h : recv.bytes.length < n) :
    ∃ e recv', discardFrame n recv = (.error e, recv') := by
  induction n using Nat.strongRecOn generalizing recv with
  | ind n ih =>
    have hbuf : 0 < relayBuf := by decide
    rw [discardFrame, if_neg (by omega)]
    by_cases hchunk : recv.bytes.length < min n relayBuf
    · obtain ⟨e, recv₁, h₁⟩ := recvExact_of_lt "跳过未知帧失败" hchunk
      exact ⟨e, recv₁, Action.bind_error h₁⟩
    · have hlen : (recv.bytes.take (min n relayBuf)).length = min n relayBuf := by rw [List.length_take]; omega
      obtain ⟨recv₁, h₁, hb₁, -⟩ := recvExact_of_le "跳过未知帧失败" (recv.bytes.take_append_drop (min n relayBuf)).symm
      rw [hlen] at h₁
      have hrest : recv₁.bytes.length < n - min n relayBuf := by rw [hb₁, List.length_drop]; omega
      obtain ⟨e, recv₂, h₂⟩ := ih (n - min n relayBuf) (by omega) hrest
      exact ⟨e, recv₂, (Action.bind_ok h₁).trans h₂⟩

variable (w : Nat)

/-- A frame that is no HEADERS frame costs one round. -/
private theorem readResponse_skip (n : Nat) (r : Record) {y : List UInt8} (hkind : r.kind ≠ 0x01)
    (h : recv.bytes = r.wire ++ y) :
    ∃ recv' : Reader IoError, readResponse w (n + 1) recv = readResponse w n recv' ∧ recv'.bytes = y ∧
      recv'.fault = recv.fault := by
  obtain ⟨recv₁, recv₂, h₁, h₂, hb₂, hf₂⟩ := recvHeader_wire r h
  obtain ⟨recv₃, h₃, hb₃, hf₃⟩ := discardFrame_complete r.payload y hb₂
  refine ⟨recv₃, ?_, hb₃, hf₃.trans hf₂⟩
  rw [readResponse, Action.bind_ok h₁, Action.bind_ok h₂, if_neg hkind, Action.bind_ok h₃]

/-- Frames that are no HEADERS frames cost as many rounds. -/
private theorem readResponse_skips (n : Nat) (frames : List Record) {y : List UInt8}
    (hkinds : ∀ f ∈ frames, f.kind ≠ 0x01) (h : recv.bytes = wireOf frames ++ y) :
    ∃ recv' : Reader IoError, readResponse w (n + frames.length) recv = readResponse w n recv' ∧ recv'.bytes = y ∧
      recv'.fault = recv.fault := by
  induction frames generalizing recv with
  | nil => exact ⟨recv, rfl, h, rfl⟩
  | cons f frames ih =>
    rw [Wire.wireOf_cons, List.append_assoc] at h
    obtain ⟨recv₁, h₁, hb₁, hf₁⟩ := readResponse_skip w (n + frames.length) f (hkinds f List.mem_cons_self) h
    obtain ⟨recv₂, h₂, hb₂, hf₂⟩ := ih (fun f' hf' => hkinds f' (List.mem_cons_of_mem f hf')) hb₁
    exact ⟨recv₂, h₁.trans h₂, hb₂, hf₂.trans hf₁⟩

/-- The payload of a HEADERS frame of admitted length is read. -/
theorem readResponse_headers {w : Nat} (hw : 32 ≤ w) (n : Nat) (r : Record) {y : List UInt8} (hkind : r.kind = 0x01)
    (hlen : r.payload.length ≤ MAX_HEADERS_FRAME_SIZE) (h : recv.bytes = r.wire ++ y) :
    ∃ recv' : Reader IoError, readResponse w (n + 1) recv = (.ok r.payload, recv') ∧ recv'.bytes = y ∧
      recv'.fault = recv.fault := by
  have hmax : MAX_HEADERS_FRAME_SIZE < 2 ^ w := Nat.lt_of_lt_of_le (by decide) (Nat.pow_le_pow_right (by decide) hw)
  have hchecked : checkedHeadersLen w r.payload.length = .ok r.payload.length := by
    unfold checkedHeadersLen
    rw [if_neg (by omega), if_neg (by omega)]
  obtain ⟨recv₁, recv₂, h₁, h₂, hb₂, hf₂⟩ := recvHeader_wire r h
  obtain ⟨recv₃, h₃, hb₃, hf₃⟩ := recvExact_of_le "读取 CONNECT 响应失败" hb₂
  refine ⟨recv₃, ?_, hb₃, hf₃.trans hf₂⟩
  rw [readResponse, Action.bind_ok h₁, Action.bind_ok h₂, if_pos hkind, hchecked]
  exact h₃

/-- A HEADERS frame that is too long is an error. -/
private theorem readResponse_too_long (n : Nat) (r : Record) {y : List UInt8} (hkind : r.kind = 0x01)
    (hlen : MAX_HEADERS_FRAME_SIZE < r.payload.length) (h : recv.bytes = r.wire ++ y) :
    ∃ e recv', readResponse w (n + 1) recv = (.error e, recv') := by
  obtain ⟨e, he⟩ : ∃ e, checkedHeadersLen w r.payload.length = .error e := by
    unfold checkedHeadersLen
    by_cases hword : 2 ^ w ≤ r.payload.length
    · rw [if_pos hword]
      exact ⟨_, rfl⟩
    · rw [if_neg hword, if_pos hlen]
      exact ⟨_, rfl⟩
  obtain ⟨recv₁, recv₂, h₁, h₂, -, -⟩ := recvHeader_wire r h
  refine ⟨e, recv₂, ?_⟩
  rw [readResponse, Action.bind_ok h₁, Action.bind_ok h₂, if_pos hkind, he]
  rfl

private theorem checkedHeadersLen_eq {w len len' : Nat} (h : checkedHeadersLen w len = .ok len') : len' = len := by
  unfold checkedHeadersLen at h
  split at h
  · cases h
  · split at h
    · cases h
    · exact (Except.ok.inj h).symm

/-- A stream that ends inside a frame is an error. -/
theorem readResponse_cut (n : Nat) (h : Wire.split recv.bytes = none) :
    ∃ e recv', readResponse w n recv = (.error e, recv') := by
  cases n with
  | zero => exact ⟨_, recv, rfl⟩
  | succ n =>
    rcases Wire.split_eq_none_cases h with hkind | ⟨kind, r, hkind, hlen⟩ | ⟨kind, r, len, payload, hkind, hlen, hlt⟩
    · obtain ⟨e, recv₁, h₁⟩ := recvVarint_cut hkind
      exact ⟨e, recv₁, Action.bind_error h₁⟩
    · obtain ⟨recv₁, h₁, hb₁, -⟩ := recvVarint_some hkind
      obtain ⟨e, recv₂, h₂⟩ := recvVarint_cut (hb₁ ▸ hlen)
      exact ⟨e, recv₂, (Action.bind_ok h₁).trans (Action.bind_error h₂)⟩
    · obtain ⟨recv₁, h₁, hb₁, -⟩ := recvVarint_some hkind
      obtain ⟨recv₂, h₂, hb₂, -⟩ := recvVarint_some (hb₁ ▸ hlen)
      have hshort : recv₂.bytes.length < len := hb₂ ▸ hlt
      rw [readResponse, Action.bind_ok h₁, Action.bind_ok h₂]
      by_cases hheaders : kind = 0x01
      · rw [if_pos hheaders]
        cases hchecked : checkedHeadersLen w len with
        | error e => exact ⟨e, recv₂, rfl⟩
        | ok len' =>
          obtain rfl := checkedHeadersLen_eq hchecked
          exact recvExact_of_lt "读取 CONNECT 响应失败" hshort
      · rw [if_neg hheaders]
        obtain ⟨e, recv₃, h₃⟩ := discardFrame_cut hshort
        exact ⟨e, recv₃, Action.bind_error h₃⟩

end Reading

/-- What the payload is read as decides the exchange. -/
theorem receiveResponse_of_ok {w : Nat} {recv recv' : Reader IoError} {payload : List UInt8}
    (h : readResponse w MAX_SKIPPED_FRAMES recv = (.ok payload, recv')) :
    receiveResponse w recv = (checkResponse w payload, recv') := by
  rw [receiveResponse, Action.bind_ok h]
  cases checkResponse w payload <;> rfl

private theorem receiveResponse_of_error {w : Nat} {recv recv' : Reader IoError} {e : Chain}
    (h : readResponse w MAX_SKIPPED_FRAMES recv = (.error e, recv')) : receiveResponse w recv = (.error e, recv') :=
  Action.bind_error h

section Response

variable {w : Nat} {recv : Reader IoError} {frames : List Record} {headers : Record}
  (hkinds : ∀ f ∈ frames, f.kind ≠ 0x01)
include hkinds

/-- Eight frames that are no HEADERS frames are too many, whatever follows. -/
private theorem readResponse_exhausted {y : List UInt8} (h : recv.bytes = wireOf frames ++ y)
    (hframes : MAX_SKIPPED_FRAMES ≤ frames.length) :
    ∃ e recv', readResponse w MAX_SKIPPED_FRAMES recv = (.error e, recv') := by
  have htake : (frames.take MAX_SKIPPED_FRAMES).length = MAX_SKIPPED_FRAMES := List.length_take_of_le hframes
  have hsplit : recv.bytes = wireOf (frames.take MAX_SKIPPED_FRAMES) ++
      (wireOf (frames.drop MAX_SKIPPED_FRAMES) ++ y) := by
    rw [← List.append_assoc, ← Wire.wireOf_append, List.take_append_drop, h]
  obtain ⟨recv₁, h₁, -, -⟩ := readResponse_skips w 0 (frames.take MAX_SKIPPED_FRAMES)
    (fun f hf => hkinds f (List.mem_of_mem_take hf)) hsplit
  rw [htake, Nat.zero_add] at h₁
  exact ⟨_, recv₁, h₁⟩

/-- Behind fewer frames the loop stands at what follows them, with a round left. -/
private theorem readResponse_reaches {y : List UInt8} (h : recv.bytes = wireOf frames ++ y)
    (hframes : frames.length < MAX_SKIPPED_FRAMES) :
    ∃ (n : Nat) (recv' : Reader IoError), readResponse w MAX_SKIPPED_FRAMES recv = readResponse w (n + 1) recv' ∧
      recv'.bytes = y ∧ recv'.fault = recv.fault := by
  obtain ⟨n, hn⟩ : ∃ n, MAX_SKIPPED_FRAMES = n + 1 + frames.length :=
    ⟨MAX_SKIPPED_FRAMES - frames.length - 1, by omega⟩
  obtain ⟨recv', hskip, hb, hf⟩ := readResponse_skips w (n + 1) frames hkinds h
  rw [← hn] at hskip
  exact ⟨n, recv', hskip, hb, hf⟩

/-- The HEADERS frame behind at most seven others is found. -/
private theorem readResponse_found (hw : 32 ≤ w) (hkind : headers.kind = 0x01) {rest : List UInt8}
    (h : recv.bytes = wireOf frames ++ (headers.wire ++ rest)) (hframes : frames.length < MAX_SKIPPED_FRAMES)
    (hlen : headers.payload.length ≤ MAX_HEADERS_FRAME_SIZE) :
    ∃ recv' : Reader IoError, readResponse w MAX_SKIPPED_FRAMES recv = (.ok headers.payload, recv') ∧
      recv'.bytes = rest ∧ recv'.fault = recv.fault := by
  obtain ⟨n, recv₁, h₁, hb₁, hf₁⟩ := readResponse_reaches (w := w) hkinds h hframes
  obtain ⟨recv₂, h₂, hb₂, hf₂⟩ := readResponse_headers hw n headers hkind hlen hb₁
  exact ⟨recv₂, h₁.trans h₂, hb₂, hf₂.trans hf₁⟩

/-- Too many frames in front of the HEADERS frame, and too long a HEADERS frame, are errors. -/
private theorem readResponse_refused (hkind : headers.kind = 0x01) {rest : List UInt8}
    (h : recv.bytes = wireOf frames ++ (headers.wire ++ rest))
    (hbad : MAX_SKIPPED_FRAMES ≤ frames.length ∨ MAX_HEADERS_FRAME_SIZE < headers.payload.length) :
    ∃ e recv', readResponse w MAX_SKIPPED_FRAMES recv = (.error e, recv') := by
  by_cases hframes : MAX_SKIPPED_FRAMES ≤ frames.length
  · exact readResponse_exhausted hkinds h hframes
  · obtain ⟨n, recv₁, h₁, hb₁, -⟩ := readResponse_reaches (w := w) hkinds h (by omega)
    obtain ⟨e, recv₂, h₂⟩ := readResponse_too_long w n headers hkind (hbad.resolve_left hframes) hb₁
    exact ⟨e, recv₂, h₁.trans h₂⟩

/-- A stream that ends before the end of the HEADERS frame is an error. -/
private theorem readResponse_truncated {missing : List UInt8} (hmissing : missing ≠ [])
    (h : recv.bytes ++ missing = wireOf frames ++ headers.wire) :
    ∃ e recv', readResponse w MAX_SKIPPED_FRAMES recv = (.error e, recv') := by
  have hall : recv.bytes ++ missing = wireOf (frames ++ [headers]) := by rw [h]; simp
  obtain ⟨ss, r, ts, tail, hsplit, hb, htail⟩ := Wire.exists_front_records hall hmissing
  have hfront : ss <+: frames := by
    have hlen := congrArg List.length hsplit
    simp only [List.length_append, List.length_cons, List.length_nil] at hlen
    exact List.prefix_of_prefix_length_le ⟨r :: ts, hsplit.symm⟩ (List.prefix_append frames [headers]) (by omega)
  have hss : ∀ f ∈ ss, f.kind ≠ 0x01 := fun f hf => hkinds f (hfront.subset hf)
  by_cases hlen : MAX_SKIPPED_FRAMES ≤ ss.length
  · exact readResponse_exhausted hss hb hlen
  · obtain ⟨n, recv₁, h₁, hb₁, -⟩ := readResponse_reaches (w := w) hss hb (by omega)
    obtain ⟨e, recv₂, h₂⟩ := readResponse_cut w (n + 1) (hb₁ ▸ htail)
    exact ⟨e, recv₂, h₁.trans h₂⟩

end Response

/-- With the request out, `exchange` is its receiving part. -/
theorem exchange_sent (w : Nat) {authority token : String} {frame : List UInt8} {send : Writer IoError}
    (hframe : headersFrame (Qpack.encodeConnectRequest authority token) = some frame) (hsend : send.fault = none)
    {recv recv' : Reader IoError} {result : Except Chain (Option String)}
    (h : receiveResponse w recv = (result, recv')) :
    exchange w authority token send recv = some (result, ⟨send.written ++ frame, none⟩, recv') := by
  simp only [exchange, hframe, Writer.writeAll_of_none hsend, h]

/-- A payload that does not decode, or has another status, is an error. -/
private theorem checkResponse_refused {w : Nat} {payload : List UInt8}
    (h : (∃ e, Qpack.decodeHeaders w payload = .error e) ∨
      ∃ decoded, Qpack.decodeHeaders w payload = .ok decoded ∧ decoded.status ≠ 200) :
    ∃ e, checkResponse w payload = .error e := by
  unfold checkResponse
  rcases h with ⟨e, h⟩ | ⟨decoded, h, hstatus⟩
  · exact ⟨[e], by rw [h]⟩
  · exact ⟨_, by rw [h]; exact if_pos hstatus⟩

/-- The exchange takes exactly its response off the stream, or fails.  A response is at most seven frames of other
types and a HEADERS frame of at most 65536 bytes that decodes to the status 200. -/
theorem exchange_consumes_response (w : Nat) (hw : 32 ≤ w) (authority token : String) (frame : List UInt8)
    (hframe : headersFrame (Qpack.encodeConnectRequest authority token) = some frame) (send : Writer IoError)
    (hsend : send.fault = none) (frames : List Record) (headers : Record) (hkinds : ∀ f ∈ frames, f.kind ≠ 0x01)
    (hkind : headers.kind = 0x01) :
    (∀ (recv : Reader IoError) (rest : List UInt8) (decoded : Qpack.ResponseHeaders),
      recv.bytes = wireOf frames ++ (headers.wire ++ rest) → frames.length ≤ 7 → headers.payload.length ≤ 65536 →
        Qpack.decodeHeaders w headers.payload = .ok decoded → decoded.status = 200 →
          ∃ recv', exchange w authority token send recv =
              some (.ok decoded.colo, ⟨send.written ++ frame, none⟩, recv') ∧
            recv'.bytes = rest ∧ recv'.fault = recv.fault) ∧
    (∀ (recv : Reader IoError) (rest : List UInt8), recv.bytes = wireOf frames ++ (headers.wire ++ rest) →
      8 ≤ frames.length ∨ 65536 < headers.payload.length ∨
        (∃ e, Qpack.decodeHeaders w headers.payload = .error e) ∨
        (∃ decoded, Qpack.decodeHeaders w headers.payload = .ok decoded ∧ decoded.status ≠ 200) →
          ∃ e send' recv', exchange w authority token send recv = some (.error e, send', recv')) ∧
    ∀ (recv : Reader IoError) (missing : List UInt8), missing ≠ [] →
      recv.bytes ++ missing = wireOf frames ++ headers.wire →
        ∃ e send' recv', exchange w authority token send recv = some (.error e, send', recv') := by
  refine ⟨fun recv rest decoded h hframes hlen hdecode hstatus => ?_, fun recv rest h hbad => ?_,
    fun recv missing hmissing h => ?_⟩
  · obtain ⟨recv', hread, hb, hf⟩ := readResponse_found hkinds hw hkind h (Nat.lt_succ_of_le hframes) hlen
    have hcheck : checkResponse w headers.payload = .ok decoded.colo := by
      simp only [checkResponse, hdecode, hstatus, ne_eq, not_true_eq_false, if_false]
    exact ⟨recv', exchange_sent w hframe hsend ((receiveResponse_of_ok hread).trans (by rw [hcheck])), hb, hf⟩
  · by_cases hread : 8 ≤ frames.length ∨ 65536 < headers.payload.length
    · obtain ⟨e, recv', hread⟩ := readResponse_refused (w := w) hkinds hkind h hread
      exact ⟨e, _, recv', exchange_sent w hframe hsend (receiveResponse_of_error hread)⟩
    · obtain ⟨e, hcheck⟩ := checkResponse_refused ((or_assoc.2 hbad).resolve_left hread)
      obtain ⟨recv', hread, -, -⟩ := readResponse_found hkinds hw hkind h
        (Nat.not_le.1 fun hframes => hread (.inl hframes)) (Nat.not_lt.1 fun hlen => hread (.inr hlen))
      exact ⟨e, _, recv', exchange_sent w hframe hsend ((receiveResponse_of_ok hread).trans (by rw [hcheck]))⟩
  · obtain ⟨e, recv', hread⟩ := readResponse_truncated (w := w) hkinds hmissing h
    exact ⟨e, _, recv', exchange_sent w hframe hsend (receiveResponse_of_error hread)⟩

/-- A SETTINGS frame with no settings, the status 200 and the start of a DATA frame, three bytes at a time. -/
theorem exchange_consumes_response_settings :
    ∃ (frame : List UInt8) (recv' : Reader IoError),
      exchange 64 "h:1" "t" ⟨[], none⟩
          ⟨[0x04, 0x00, 0x01, 0x03, 0x00, 0x00, 0xd9, 0x00], ⟨fun _ => 3, fun _ => by decide⟩, none⟩ =
        some (.ok none, ⟨frame, none⟩, recv') ∧ recv'.bytes = [0x00] := by
  let status : Qpack.FieldSection :=
    ⟨⟨0x00, [], by decide⟩, ⟨0x00, [], by decide⟩, [.indexed ⟨0xd9, [], by decide⟩ (by decide)]⟩
  have hdecode : Qpack.decodeHeaders 64 [0x00, 0x00, 0xd9] = .ok ⟨200, none⟩ :=
    Qpack.decodeHeaders_wire status (by decide)
  obtain ⟨frame, hframe⟩ := Option.isSome_iff_exists.1
    (by decide : (headersFrame (Qpack.encodeConnectRequest "h:1" "t")).isSome = true)
  obtain ⟨recv', h, hb, -⟩ := (exchange_consumes_response 64 (by decide) "h:1" "t" frame hframe ⟨[], none⟩ rfl
    [⟨0x04, [], [0x04, 0x00], _, rfl, rfl⟩]
    ⟨0x01, [0x00, 0x00, 0xd9], [0x01, 0x03, 0x00, 0x00, 0xd9], _, rfl, rfl⟩ (by decide) rfl).1
    ⟨[0x04, 0x00, 0x01, 0x03, 0x00, 0x00, 0xd9, 0x00], ⟨fun _ => 3, fun _ => by decide⟩, none⟩ [0x00] ⟨200, none⟩ rfl
    (by decide) (by decide) hdecode rfl
  exact ⟨frame, recv', h, hb⟩

end WarpSocks.Masque
