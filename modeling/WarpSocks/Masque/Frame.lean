import WarpSocks.Io
import WarpSocks.Wire.Reader
import WarpSocks.Wire.Record

/-!
# H3 DATA framing of a CONNECT tunnel

`masque/varint.rs`, the frame writers of `masque/qpack.rs` and the two pump directions of `masque/mod.rs`.  The
integers are those of `quinn_proto::VarInt`, that is `Wire.Varint`; a value that does not fit one makes the `expect`
in `write` panic, which is the `none` here.  The receive side is a `Wire.Reader`, so the functions below run for
every way the stream can be cut into reads.
-/

namespace WarpSocks.Masque

open Wire (Reader Writer)

/-! ### `varint.rs` -/

/-- `varint::write`. -/
def write (out : List UInt8) (value : Nat) : Option (List UInt8) :=
  if value < 2 ^ 62 then some (out ++ Wire.Varint.encode value) else none

theorem write_of_lt (out : List UInt8) {value : Nat} (h : value < 2 ^ 62) :
    write out value = some (out ++ Wire.Varint.encode value) := if_pos h

/-- `varint::read`: the value and the number of bytes it takes. -/
def read (bytes : List UInt8) : Option (Nat × Nat) :=
  match Wire.Varint.decode bytes with
  | none => none
  | some (value, rest) => some (value, bytes.length - rest.length)

theorem read_eq (bytes : List UInt8) :
    read bytes = (Wire.Varint.decode bytes).map fun p => (p.1, bytes.length - p.2.length) := by
  unfold read
  cases Wire.Varint.decode bytes <;> rfl

/-! ### Frame writers -/

/-- `qpack::write_frame`. -/
def writeFrame (out : List UInt8) (frameType : Nat) (payload : List UInt8) : Option (List UInt8) :=
  match write out frameType with
  | none => none
  | some out =>
    match write out payload.length with
    | none => none
    | some out => some (out ++ payload)

/-- `qpack::data_frame`. -/
def dataFrame (out payload : List UInt8) : Option (List UInt8) := writeFrame out 0x00 payload

/-! ### The pump -/

/-- `RELAY_BUF`. -/
def relayBuf : Nat := 64 * 1024

/-- `read_varint_or_eof`: `none` when the stream ends before the first byte. -/
def readVarintOrEof (recv : Reader IoError) : Except IoError (Option Nat) × Reader IoError :=
  match recv.read 1 with
  | (.error e, recv) => (.error e, recv)
  | (.ok [], recv) => (.ok none, recv)
  | (.ok (b :: _), recv) =>
    let len := 1 <<< (b >>> 6).toNat
    match recv.readExact earlyEof (len - 1) with
    | (.error e, recv) => (.error e, recv)
    | (.ok rest, recv) => (.ok ((read (b :: rest)).map Prod.fst), recv)

/-- `read_varint`. -/
def readVarint (recv : Reader IoError) : Except IoError Nat × Reader IoError :=
  match readVarintOrEof recv with
  | (.error e, recv) => (.error e, recv)
  | (.ok none, recv) => (.error ⟨.unexpectedEof, "H3 帧头意外结束"⟩, recv)
  | (.ok (some v), recv) => (.ok v, recv)

/-- The inner loop of `drain_download`: the payload of one frame, written out when the frame is a DATA frame. -/
def drainPayload (frameType remaining : Nat) (recv : Reader IoError) (out : Writer IoError) :
    Except IoError Unit × Reader IoError × Writer IoError :=
  if remaining = 0 then (.ok (), recv, out)
  else
    match recv.read (min remaining relayBuf) with
    | (.error e, recv) => (.error e, recv, out)
    | (.ok [], recv) => (.error ⟨.unexpectedEof, "H3 帧负载意外结束"⟩, recv, out)
    | (.ok (b :: bs), recv) =>
      if frameType = 0x00 then
        match out.writeAll (b :: bs) with
        | (.error e, out) => (.error e, recv, out)
        | (.ok (), out) => drainPayload frameType (remaining - (bs.length + 1)) recv out
      else drainPayload frameType (remaining - (bs.length + 1)) recv out
termination_by remaining

private theorem length_readVarintOrEof {recv recv' : Reader IoError} {v : Nat}
    (h : readVarintOrEof recv = (.ok (some v), recv')) : recv'.bytes.length < recv.bytes.length := by
  unfold readVarintOrEof at h
  split at h
  · simp at h
  · simp at h
  · rename_i b bs recv₁ h₁
    have hlt := Reader.length_read_lt h₁
    have hle := Reader.length_readExact_le earlyEof (1 <<< (b >>> 6).toNat - 1) recv₁
    dsimp only at h
    split at h
    · simp at h
    · rename_i h₂
      rw [h₂] at hle
      simp only [Prod.mk.injEq] at h
      rw [← h.2]
      exact Nat.lt_of_le_of_lt hle hlt

private theorem length_readVarint {recv recv' : Reader IoError} {v : Nat}
    (h : readVarint recv = (.ok v, recv')) : recv'.bytes.length < recv.bytes.length := by
  unfold readVarint at h
  split at h
  · simp at h
  · simp at h
  · rename_i h₁
    simp only [Prod.mk.injEq] at h
    rw [← h.2]
    exact length_readVarintOrEof h₁

private theorem length_drainPayload (frameType remaining : Nat) : ∀ (recv : Reader IoError) (out : Writer IoError),
    (drainPayload frameType remaining recv out).2.1.bytes.length ≤ recv.bytes.length := by
  induction remaining using Nat.strongRecOn with
  | ind n ih =>
    intro recv out
    rw [drainPayload]
    split
    · exact Nat.le_refl _
    · have hle := Reader.length_read_le (min n relayBuf) recv
      split
      · rename_i h; rw [h] at hle; exact hle
      · rename_i h; rw [h] at hle; exact hle
      · rename_i b bs recv' h
        rw [h] at hle
        split
        · split
          · exact hle
          · exact Nat.le_trans (ih _ (by omega) recv' _) hle
        · exact Nat.le_trans (ih _ (by omega) recv' _) hle

/-- `drain_download`: edge to local. -/
def drainDownload (recv : Reader IoError) (out : Writer IoError) :
    Except IoError Unit × Reader IoError × Writer IoError :=
  match _h : readVarintOrEof recv with
  | (.error e, recv₁) => (.error e, recv₁, out)
  | (.ok none, recv₁) => (.ok (), recv₁, out)
  | (.ok (some frameType), recv₁) =>
    match _h₁ : readVarint recv₁ with
    | (.error e, recv₂) => (.error e, recv₂, out)
    | (.ok remaining, recv₂) =>
      match _h₂ : drainPayload frameType remaining recv₂ out with
      | (.error e, recv₃, out₃) => (.error e, recv₃, out₃)
      | (.ok (), recv₃, out₃) => drainDownload recv₃ out₃
termination_by recv.bytes.length
decreasing_by
  have h := length_readVarintOrEof _h
  have h₁ := length_readVarint _h₁
  have h₂ := length_drainPayload frameType remaining recv₂ out
  rw [_h₂] at h₂
  exact Nat.lt_of_le_of_lt h₂ (Nat.lt_trans h₁ h)

theorem drainDownload_eq (recv : Reader IoError) (out : Writer IoError) :
    drainDownload recv out =
      match readVarintOrEof recv with
      | (.error e, recv₁) => (.error e, recv₁, out)
      | (.ok none, recv₁) => (.ok (), recv₁, out)
      | (.ok (some frameType), recv₁) =>
        match readVarint recv₁ with
        | (.error e, recv₂) => (.error e, recv₂, out)
        | (.ok remaining, recv₂) =>
          match drainPayload frameType remaining recv₂ out with
          | (.error e, recv₃, out₃) => (.error e, recv₃, out₃)
          | (.ok (), recv₃, out₃) => drainDownload recv₃ out₃ := by
  rw [drainDownload]
  split
  · rename_i h; rw [h]
  · rename_i h; rw [h]
  · rename_i h
    rw [h]
    split
    · rename_i h₁; simp only [h₁]
    · rename_i h₁
      simp only [h₁]
      split
      · rename_i h₂; rw [h₂]
      · rename_i h₂; rw [h₂]

/-- `drain_upload`: local to edge, one DATA frame for each read. -/
def drainUpload (input : Reader IoError) (send : Writer IoError) :
    Option (Except IoError Unit × Reader IoError × Writer IoError) :=
  match _h : input.read relayBuf with
  | (.error e, input₁) => some (.error e, input₁, send)
  | (.ok [], input₁) => some (.ok (), input₁, send)
  | (.ok (b :: bs), input₁) =>
    match dataFrame [] (b :: bs) with
    | none => none
    | some frame =>
      match send.writeAll frame with
      | (.error e, send₁) => some (.error e, input₁, send₁)
      | (.ok (), send₁) => drainUpload input₁ send₁
termination_by input.bytes.length
decreasing_by exact Reader.length_read_lt _h

theorem drainUpload_eq (input : Reader IoError) (send : Writer IoError) :
    drainUpload input send =
      match input.read relayBuf with
      | (.error e, input₁) => some (.error e, input₁, send)
      | (.ok [], input₁) => some (.ok (), input₁, send)
      | (.ok (b :: bs), input₁) =>
        match dataFrame [] (b :: bs) with
        | none => none
        | some frame =>
          match send.writeAll frame with
          | (.error e, send₁) => some (.error e, input₁, send₁)
          | (.ok (), send₁) => drainUpload input₁ send₁ := by
  rw [drainUpload]
  split
  · rename_i h; rw [h]
  · rename_i h; rw [h]
  · rename_i h; rw [h]

end WarpSocks.Masque
