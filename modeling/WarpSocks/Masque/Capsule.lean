import WarpSocks.Masque.Frame

/-!
# CONNECT-IP capsules over HTTP/2

`send_packets` and `receive_packets` of `masque/h2.rs`.  The sender's stream is the list of answers to its
successive `poll_capacity` calls, and it waits when there is none left; the receiver's stream is the list of
results of its successive `data` calls.  `w` is the number of bits of a `usize`, and `chan i` the answer of the
packet channel to the `i`-th offered packet.
-/

namespace WarpSocks.Masque.Capsule

/-- `PACKET_MTU`. -/
def packetMtu : Nat := 1280

/-- `MAX_CAPSULE_BUFFER`. -/
def maxCapsuleBuffer : Nat := 256 * 1024

/-- The `max_frame_size` of the H2 connection. -/
def maxFrameSize : Nat := 64 * 1024

/-! ### Sending -/

/-- An answer of `poll_capacity`. -/
inductive Capacity where
  | granted (available : Nat)
  | closed
  | failed (error : String)
  deriving DecidableEq, Repr

/-- The sending half of the H2 stream: the answers still to come, the error of the `i`-th `send_data` call if it has
one, and the pieces sent, each with its end-of-stream flag. -/
structure SendStream where
  capacities : List Capacity
  fault : Nat → Option String
  sent : List (List UInt8 × Bool)

/-- The bytes sent. -/
def SendStream.bytes (stream : SendStream) : List UInt8 := stream.sent.flatMap Prod.fst

/-- `SendStream::send_data`. -/
def SendStream.sendData (stream : SendStream) (chunk : List UInt8) (endOfStream : Bool) :
    Except String SendStream :=
  match stream.fault stream.sent.length with
  | some e => .error e
  | none => .ok { stream with sent := stream.sent ++ [(chunk, endOfStream)] }

/-- How far a task has come. -/
inductive Progress (ε : Type) where
  | finished
  | waiting
  | failed (error : ε)
  deriving DecidableEq, Repr

/-- The inner loop of `send_packets` over the answers `capacities`: one capsule, in pieces of the granted sizes. -/
def sendCapsule : List Capacity → List UInt8 → SendStream → Progress String × SendStream
  | capacities, [], stream => (.finished, { stream with capacities })
  | [], _ :: _, stream => (.waiting, { stream with capacities := [] })
  | .closed :: capacities, _ :: _, stream => (.failed "MASQUE H2 发送流已关闭", { stream with capacities })
  | .failed e :: capacities, _ :: _, stream => (.failed e, { stream with capacities })
  | .granted available :: capacities, b :: remaining, stream =>
    if available = 0 then sendCapsule capacities (b :: remaining) stream
    else
      let size := min available (b :: remaining).length
      match stream.sendData ((b :: remaining).take size) false with
      | .error e => (.failed e, { stream with capacities })
      | .ok stream => sendCapsule capacities ((b :: remaining).drop size) stream

/-- `send_packets`; the channel of packets closes behind the last one.  `none` is a panic of `varint::write`. -/
def sendPackets : List (List UInt8) → SendStream → Option (Progress String × SendStream)
  | [], stream =>
    match stream.sendData [] true with
    | .error e => some (.failed e, stream)
    | .ok stream => some (.finished, stream)
  | packet :: packets, stream =>
    if packetMtu < packet.length then some (.failed "IP packet 超过 MASQUE MTU", stream)
    else
      match write [0] packet.length with
      | none => none
      | some capsule =>
        match sendCapsule stream.capacities (capsule ++ packet) stream with
        | (.finished, stream) => sendPackets packets stream
        | (.waiting, stream) => some (.waiting, stream)
        | (.failed e, stream) => some (.failed e, stream)

/-! ### Receiving -/

/-- The errors `receive_packets` ends with. -/
inductive ReceiveError where
  | data (cause : String)
  | release (cause : String)
  | bufferLimit
  | platformLimit
  | lengthLimit (length : Nat)
  | streamClosed
  deriving DecidableEq, Repr

/-- Their texts. -/
def ReceiveError.text : ReceiveError → String
  | .data cause => "读取 MASQUE H2 数据失败: " ++ cause
  | .release cause => cause
  | .bufferLimit => "MASQUE capsule 缓冲区超过上限"
  | .platformLimit => "MASQUE capsule 长度超出平台限制"
  | .lengthLimit length => s!"MASQUE capsule 长度超过上限: {length}"
  | .streamClosed => "MASQUE H2 数据流已关闭"

/-- A stream is refused for its size. -/
def ReceiveError.IsLimit : ReceiveError → Prop
  | .bufferLimit | .platformLimit | .lengthLimit _ => True
  | _ => False

/-- An answer of `try_send`. -/
inductive TrySend where
  | ok
  | full
  | closed
  deriving DecidableEq, Repr

/-- A result of `RecvStream::data`; the last one is a chunk whose `release_capacity` fails. -/
inductive Data where
  | chunk (bytes : List UInt8)
  | failed (cause : String)
  | unreleased (cause : String)
  deriving DecidableEq, Repr

/-- How the inner loop of `receive_packets` ends: it needs more data behind the `consumed` bytes, the channel is
closed, or it bails. -/
inductive Parsed where
  | more (consumed : Nat)
  | closed
  | failed (error : ReceiveError)
  deriving DecidableEq, Repr

/-- The payload without a context ID 0 in front. -/
def stripContext (packet : List UInt8) : List UInt8 :=
  if packet.head? = some 0 ∧ 1 < packet.length then packet.drop 1 else packet

/-- The test for an IP packet: the version nibble is 4 or 6. -/
def isIp (packet : List UInt8) : Bool :=
  match packet.head? with
  | none => false
  | some b => b >>> 4 == 4 || b >>> 4 == 6

private theorem read_pos {bytes : List UInt8} {v n : Nat} (h : read bytes = some (v, n)) :
    0 < n ∧ n ≤ bytes.length := by
  rw [read_eq, Option.map_eq_some_iff] at h
  obtain ⟨p, hp, heq⟩ := h
  have := Wire.Varint.length_of_decode (Prod.eta p ▸ hp)
  simp only [Prod.mk.injEq] at heq
  omega

/-- The inner loop of `receive_packets`: the complete capsules in `buf` from `consumed` on. -/
def parseCapsules (w : Nat) (chan : Nat → TrySend) (buf : List UInt8) (consumed : Nat)
    (offers : List (List UInt8)) : Parsed × List (List UInt8) :=
  match _h : read (buf.drop consumed) with
  | none => (.more consumed, offers)
  | some (kind, kindLen) =>
    match read (buf.drop (consumed + kindLen)) with
    | none => (.more consumed, offers)
    | some (length, lengthLen) =>
      if 2 ^ w ≤ length then (.failed .platformLimit, offers)
      else if maxCapsuleBuffer < length then (.failed (.lengthLimit length), offers)
      else
        let header := kindLen + lengthLen
        if buf.length - consumed < header + length then (.more consumed, offers)
        else if kind = 0 then
          let packet := stripContext ((buf.drop (consumed + header)).take length)
          if isIp packet then
            -- a full queue drops the packet, as an IP device may
            if chan offers.length = .closed then (.closed, offers ++ [packet])
            else parseCapsules w chan buf (consumed + (header + length)) (offers ++ [packet])
          else parseCapsules w chan buf (consumed + (header + length)) offers
        else parseCapsules w chan buf (consumed + (header + length)) offers
termination_by buf.length - consumed
decreasing_by
  all_goals
    have := read_pos _h
    rw [List.length_drop] at this
    omega

/-- `receive_packets`: how it ends and the packets it passed to `try_send`; `buf` holds what is not parsed yet. -/
def receiveLoop (w : Nat) (chan : Nat → TrySend) :
    List Data → List UInt8 → List (List UInt8) → Progress ReceiveError × List (List UInt8)
  | [], _, offers => (.failed .streamClosed, offers)
  | .failed cause :: _, _, offers => (.failed (.data cause), offers)
  | .unreleased cause :: _, _, offers => (.failed (.release cause), offers)
  | .chunk chunk :: stream, buf, offers =>
    if maxCapsuleBuffer < buf.length + chunk.length then (.failed .bufferLimit, offers)
    else
      match parseCapsules w chan (buf ++ chunk) 0 offers with
      | (.failed e, offers) => (.failed e, offers)
      | (.closed, offers) => (.finished, offers)
      | (.more consumed, offers) => receiveLoop w chan stream ((buf ++ chunk).drop consumed) offers

/-- `receive_packets` on a new stream. -/
def receivePackets (w : Nat) (chan : Nat → TrySend) (stream : List Data) :
    Progress ReceiveError × List (List UInt8) := receiveLoop w chan stream [] []

theorem parseCapsules_eq (w : Nat) (chan : Nat → TrySend) (buf : List UInt8) (consumed : Nat)
    (offers : List (List UInt8)) :
    parseCapsules w chan buf consumed offers =
      match read (buf.drop consumed) with
      | none => (.more consumed, offers)
      | some (kind, kindLen) =>
        match read (buf.drop (consumed + kindLen)) with
        | none => (.more consumed, offers)
        | some (length, lengthLen) =>
          if 2 ^ w ≤ length then (.failed .platformLimit, offers)
          else if maxCapsuleBuffer < length then (.failed (.lengthLimit length), offers)
          else if buf.length - consumed < kindLen + lengthLen + length then (.more consumed, offers)
          else if kind = 0 then
            if isIp (stripContext ((buf.drop (consumed + (kindLen + lengthLen))).take length)) then
              if chan offers.length = .closed then
                (.closed, offers ++ [stripContext ((buf.drop (consumed + (kindLen + lengthLen))).take length)])
              else parseCapsules w chan buf (consumed + (kindLen + lengthLen + length))
                  (offers ++ [stripContext ((buf.drop (consumed + (kindLen + lengthLen))).take length)])
            else parseCapsules w chan buf (consumed + (kindLen + lengthLen + length)) offers
          else parseCapsules w chan buf (consumed + (kindLen + lengthLen + length)) offers := by
  rw [parseCapsules]
  split
  · rename_i h; rw [h]
  · rename_i h; rw [h]

end WarpSocks.Masque.Capsule
