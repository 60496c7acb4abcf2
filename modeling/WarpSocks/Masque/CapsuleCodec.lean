import WarpSocks.Masque.CapsuleReceive
import Mathlib.Data.List.Basic

/-!
# The capsule codec preserves packets

`send_packets` emits one DATAGRAM capsule for each packet, whatever capacities it is granted
(`sendPackets_bytes`), and `receive_packets` recovers the packets from these capsules, also with a context ID in
front of a payload and with other capsules in between, however the stream is cut into chunks
(`capsules_preserve_packets`).
-/

namespace WarpSocks.Masque.Capsule

open Wire (Record wireOf weave)

/-- The DATAGRAM capsule of a payload. -/
def capsuleOf (payload : List UInt8) : List UInt8 := 0 :: (Wire.Varint.encode payload.length ++ payload)

/-- The DATAGRAM capsule of a packet, with or without a context ID 0. -/
def datagram (context : Bool) (packet : List UInt8) : List UInt8 :=
  capsuleOf (if context then 0 :: packet else packet)

/-! ### Sending -/

private theorem SendStream.bytes_sendData {stream stream' : SendStream} {c : List UInt8} {e : Bool}
    (h : stream.sendData c e = .ok stream') : stream'.bytes = stream.bytes ++ c := by
  unfold SendStream.sendData at h
  split at h
  · cases h
  · simp only [Except.ok.injEq] at h
    simp [← h, SendStream.bytes]

/-- The inner loop sends a part of the capsule, and all of it when it comes to its end. -/
private theorem sendCapsule_bytes (gs : List Capacity) (remaining : List UInt8) (stream : SendStream) :
    ∃ x y, remaining = x ++ y ∧ (sendCapsule gs remaining stream).2.bytes = stream.bytes ++ x ∧
      ((sendCapsule gs remaining stream).1 = .finished → y = []) := by
  fun_induction sendCapsule gs remaining stream with
  | case1 gs stream => exact ⟨[], [], rfl, by simp [SendStream.bytes], fun _ => rfl⟩
  | case2 b bs stream => exact ⟨[], b :: bs, rfl, by simp [SendStream.bytes], nofun⟩
  | case3 gs b bs stream => exact ⟨[], b :: bs, rfl, by simp [SendStream.bytes], nofun⟩
  | case4 e gs b bs stream => exact ⟨[], b :: bs, rfl, by simp [SendStream.bytes], nofun⟩
  | case5 gs b bs stream ih => exact ih
  | case6 available gs b bs stream h0 size e hsend =>
    exact ⟨[], b :: bs, rfl, by simp [SendStream.bytes], nofun⟩
  | case7 available gs b bs stream h0 size stream' hsend ih =>
    obtain ⟨x, y, hxy, hbytes, hfin⟩ := ih
    refine ⟨(b :: bs).take size ++ x, y, ?_, ?_, hfin⟩
    · rw [List.append_assoc, ← hxy, List.take_append_drop]
    · rw [hbytes, SendStream.bytes_sendData hsend, List.append_assoc]

/-- The number of answers that let something be sent. -/
private def grants (gs : List Capacity) : Nat := gs.countP (· ≠ .granted 0)

/-- Each such answer takes at least one byte, so enough of them take all. -/
private theorem sendCapsule_finished (gs : List Capacity) (remaining : List UInt8) (stream : SendStream)
    (hgs : ∀ g ∈ gs, ∃ n, g = .granted n) (hfault : ∀ i, stream.fault i = none)
    (hlen : remaining.length ≤ grants gs) :
    ∃ stream', sendCapsule gs remaining stream = (.finished, stream') ∧
      (∀ g ∈ stream'.capacities, ∃ n, g = .granted n) ∧ (∀ i, stream'.fault i = none) ∧
      grants gs ≤ remaining.length + grants stream'.capacities := by
  fun_induction sendCapsule gs remaining stream with
  | case1 gs stream => exact ⟨_, rfl, hgs, hfault, by simp⟩
  | case2 b bs stream => simp [grants] at hlen
  | case3 gs b bs stream => obtain ⟨n, h⟩ := hgs _ List.mem_cons_self; cases h
  | case4 e gs b bs stream => obtain ⟨n, h⟩ := hgs _ List.mem_cons_self; cases h
  | case5 gs b bs stream ih =>
    have hskip : grants (.granted 0 :: gs) = grants gs := by simp [grants]
    rw [hskip] at hlen ⊢
    exact ih (fun g hg => hgs g (by simp [hg])) hfault hlen
  | case6 available gs b bs stream h0 size e hsend => simp [SendStream.sendData, hfault] at hsend
  | case7 available gs b bs stream h0 size stream' hsend ih =>
    have hone : grants (.granted available :: gs) = grants gs + 1 := by simp [grants, h0]
    have hsize : 1 ≤ size ∧ size ≤ (b :: bs).length := by
      have : size = min available (b :: bs).length := rfl
      rw [List.length_cons] at this ⊢
      omega
    have hfault' : ∀ i, stream'.fault i = none := by
      simp only [SendStream.sendData, hfault, Except.ok.injEq] at hsend
      rw [← hsend]
      exact hfault
    rw [hone] at hlen ⊢
    obtain ⟨s, hs, hgs', hf, hle⟩ := ih (fun g hg => hgs g (by simp [hg])) hfault'
      (by rw [List.length_drop]; omega)
    refine ⟨s, hs, hgs', hf, ?_⟩
    rw [List.length_drop] at hle
    omega

theorem write_capsule {packet : List UInt8} (h : packet.length ≤ packetMtu) :
    ∃ capsule, write [0] packet.length = some capsule ∧ capsule ++ packet = capsuleOf packet := by
  have hlt : packet.length < 2 ^ 62 := Nat.lt_of_le_of_lt h (by decide)
  exact ⟨_, write_of_lt [0] hlt, rfl⟩

/-- What is emitted is a front of the capsules, and all of them when the task finishes. -/
private theorem sendPackets_bytes {packets : List (List UInt8)} (hp : ∀ p ∈ packets, p.length ≤ packetMtu)
    (stream : SendStream) : ∃ progress stream', sendPackets packets stream = some (progress, stream') ∧
      ∃ x y, packets.flatMap capsuleOf = x ++ y ∧ stream'.bytes = stream.bytes ++ x ∧
        (progress = .finished → y = []) := by
  induction packets generalizing stream with
  | nil =>
    rw [sendPackets]
    cases h : stream.sendData [] true with
    | error e => exact ⟨_, _, rfl, [], [], rfl, by simp, nofun⟩
    | ok stream' => exact ⟨_, _, rfl, [], [], rfl, SendStream.bytes_sendData h, fun _ => rfl⟩
  | cons packet packets ih =>
    have hlen := hp packet List.mem_cons_self
    obtain ⟨capsule, hw, hc⟩ := write_capsule hlen
    obtain ⟨x, y, hxy, hbytes, hfin⟩ := sendCapsule_bytes stream.capacities (capsuleOf packet) stream
    rw [sendPackets, if_neg (Nat.not_lt.2 hlen), hw, List.flatMap_cons]
    simp only [hc]
    generalize sendCapsule stream.capacities (capsuleOf packet) stream = sent at hbytes hfin ⊢
    obtain ⟨progress, stream'⟩ := sent
    cases progress with
    | finished =>
      obtain ⟨p, s, hs, x', y', hxy', hbytes', hfin'⟩ := ih (fun p h => hp p (List.mem_cons_of_mem _ h)) stream'
      obtain rfl := hfin rfl
      refine ⟨p, s, hs, x ++ x', y', ?_, ?_, hfin'⟩
      · rw [hxy, hxy', List.append_nil, List.append_assoc]
      · rw [hbytes', hbytes, List.append_assoc]
    | waiting => exact ⟨_, _, rfl, x, y ++ packets.flatMap capsuleOf, by rw [hxy, List.append_assoc], hbytes, nofun⟩
    | failed e => exact ⟨_, _, rfl, x, y ++ packets.flatMap capsuleOf, by rw [hxy, List.append_assoc], hbytes, nofun⟩

private theorem sendPackets_finished {packets : List (List UInt8)} (hp : ∀ p ∈ packets, p.length ≤ packetMtu)
    (stream : SendStream) (hgs : ∀ g ∈ stream.capacities, ∃ n, g = .granted n) (hfault : ∀ i, stream.fault i = none)
    (hlen : (packets.flatMap capsuleOf).length ≤ grants stream.capacities) :
    ∃ stream', sendPackets packets stream = some (.finished, stream') := by
  induction packets generalizing stream with
  | nil => exact ⟨_, by simp only [sendPackets, SendStream.sendData, hfault]; rfl⟩
  | cons packet packets ih =>
    have hmtu := hp packet List.mem_cons_self
    obtain ⟨capsule, hw, hc⟩ := write_capsule hmtu
    rw [List.flatMap_cons, List.length_append] at hlen
    obtain ⟨s, hs, hgs', hf, hle⟩ :=
      sendCapsule_finished stream.capacities (capsuleOf packet) stream hgs hfault (by omega)
    rw [sendPackets, if_neg (Nat.not_lt.2 hmtu), hw]
    simp only [hc, hs]
    exact ih (fun p h => hp p (List.mem_cons_of_mem _ h)) s hgs' hf (by omega)

/-! ### Receiving -/

private theorem isIp_cons {packet : List UInt8} (h : isIp packet) : ∃ b bs, packet = b :: bs ∧ b ≠ 0 := by
  cases packet with
  | nil => simp [isIp] at h
  | cons b bs =>
    refine ⟨b, bs, rfl, ?_⟩
    rintro rfl
    simp [isIp] at h

/-- The context ID is told from the packet by its first byte. -/
private theorem stripContext_datagram {packet : List UInt8} (h : isIp packet) (context : Bool) :
    stripContext (if context then 0 :: packet else packet) = packet := by
  obtain ⟨b, bs, rfl, hb⟩ := isIp_cons h
  cases context with
  | false => simp [stripContext, hb]
  | true => simp [stripContext]

private theorem exists_datagram {packet : List UInt8} (hlen : packet.length ≤ packetMtu) (h : isIp packet)
    (context : Bool) : ∃ r : Record, r.wire = datagram context packet ∧ packetOf r.content = some packet := by
  have hpay : (if context then 0 :: packet else packet).length < 2 ^ 62 := by
    have : packetMtu + 1 < 2 ^ 62 := by decide
    split
    · rw [List.length_cons]; omega
    · omega
  refine ⟨.shortest 0 (if context then 0 :: packet else packet) (by decide) hpay, rfl, ?_⟩
  simp only [packetOf, Record.content, Record.shortest, stripContext_datagram h, h, and_self, ↓reduceIte]

private theorem exists_datagrams {packets : List (List UInt8)}
    (hp : ∀ p ∈ packets, p.length ≤ packetMtu ∧ isIp p) {contexts : List Bool}
    (hlen : contexts.length = packets.length) :
    ∃ rs : List Record, rs.map Record.wire = List.zipWith datagram contexts packets ∧
      rs.flatMap (fun r => (packetOf r.content).toList) = packets := by
  induction packets generalizing contexts with
  | nil => exact ⟨[], by simp, rfl⟩
  | cons packet packets ih =>
    obtain ⟨c, cs, rfl⟩ := List.exists_cons_of_length_eq_add_one hlen
    obtain ⟨rs, hw, hrs⟩ := ih (fun p h => hp p (List.mem_cons_of_mem _ h)) (Nat.succ.inj hlen)
    obtain ⟨r, hr, hc⟩ := exists_datagram (hp packet List.mem_cons_self).1 (hp packet List.mem_cons_self).2 c
    exact ⟨r :: rs, by simp [hr, hw], by simp [hc, hrs]⟩

private theorem packetsOf_wireOf (rs : List Record) :
    packetsOf (wireOf rs) = rs.flatMap fun r => (packetOf r.content).toList := by
  induction rs with
  | nil =>
    have hnil : Wire.split [] = none := rfl
    simp [packetsOf, Wire.scan_of_split_none hnil]
  | cons r rs ih => rw [Wire.wireOf_cons, packetsOf_wire, ih, List.flatMap_cons]

/-- The capsule codec preserves packets.  The sender emits the capsules of the packets, a front of them as long as
it waits or when its stream fails, all of them when it finishes, which it does with enough capacity.  The receiver
offers the packets, whole, in order and each once, for every stream that has their capsules, some with a context
ID, and any other capsules in between, unless it refuses the stream for its size. -/
theorem capsules_preserve_packets (w : Nat) (hw : 32 ≤ w) (packets : List (List UInt8))
    (hp : ∀ p ∈ packets, 1 ≤ p.length ∧ p.length ≤ packetMtu ∧ isIp p) :
    (∀ (capacities : List Capacity) (fault : Nat → Option String),
      ∃ progress stream, sendPackets packets ⟨capacities, fault, []⟩ = some (progress, stream) ∧
        stream.bytes <+: packets.flatMap capsuleOf ∧
        (progress = .finished → stream.bytes = packets.flatMap capsuleOf) ∧
        ((∀ g ∈ capacities, ∃ n, g = .granted n) → (∀ i, fault i = none) →
          (packets.flatMap capsuleOf).length ≤ capacities.countP (· ≠ .granted 0) → progress = .finished)) ∧
    (∀ (gaps : Nat → List Record) (contexts : List Bool) (chan : Nat → TrySend) (chunks : List (List UInt8)),
      (∀ i, ∀ r ∈ gaps i, r.kind ≠ 0) → contexts.length = packets.length → (∀ i, chan i ≠ .closed) →
      chunks.flatten = weave gaps (List.zipWith datagram contexts packets) →
      (∀ e, (receivePackets w chan (chunks.map .chunk)).1 = .failed e → ¬ e.IsLimit) →
      receivePackets w chan (chunks.map .chunk) = (.failed .streamClosed, packets)) := by
  constructor
  · intro capacities fault
    have hmtu : ∀ p ∈ packets, p.length ≤ packetMtu := fun p h => (hp p h).2.1
    obtain ⟨progress, stream, hrun, x, y, hxy, hbytes, hfin⟩ := sendPackets_bytes hmtu ⟨capacities, fault, []⟩
    have hx : stream.bytes = x := hbytes
    refine ⟨progress, stream, hrun, ⟨y, by rw [hx, hxy]⟩, fun h => ?_, fun hgs hfault hlen => ?_⟩
    · rw [hx, hxy, hfin h, List.append_nil]
    · obtain ⟨s, hs⟩ := sendPackets_finished hmtu ⟨capacities, fault, []⟩ hgs hfault hlen
      rw [hrun] at hs
      simp only [Option.some.injEq, Prod.mk.injEq] at hs
      exact hs.1
  · intro gaps contexts chan chunks hg hlen hopen hstream hlimit
    obtain ⟨rs, hrs, hpackets⟩ := exists_datagrams (fun p h => (hp p h).2) hlen
    -- inserted capsules are not of type 0, so they are not offered
    have hskip : ∀ i, ∀ r ∈ gaps i, (packetOf r.content).toList = [] := by
      intro i r hr
      simp [packetOf, Record.content, hg i r hr]
    obtain ⟨ss, hw', hss⟩ := Wire.exists_weave (fun r => (packetOf r.content).toList) rs hskip
    rcases receiveLoop_outcome chan hw chunks [] [] rfl with h | ⟨e, os, h, hlim, -⟩
    · rw [receivePackets, h, List.nil_append, hstream, ← hrs, hw', packetsOf_wireOf, hss, hpackets,
        offerAll_open hopen]
      rfl
    · exact absurd hlim (hlimit e (by rw [receivePackets, h]))

/-- One packet, sent in two pieces, received with a context ID and behind a capsule of type 1. -/
theorem capsules_preserve_packets_one :
    (∀ p ∈ [[(0x45 : UInt8), 0x00]], 1 ≤ p.length ∧ p.length ≤ packetMtu ∧ isIp p) ∧
    receivePackets 64 (fun _ => .ok) ([[1, 1], [7, 0, 3, 0, 0x45], [0x00]].map .chunk) =
      (.failed .streamClosed, [[0x45, 0x00]]) := by
  have hp : ∀ p ∈ [[(0x45 : UInt8), 0x00]], 1 ≤ p.length ∧ p.length ≤ packetMtu ∧ isIp p := by decide
  refine ⟨hp, (capsules_preserve_packets 64 (by decide) _ hp).2
    (fun i => if i = 0 then [.shortest 1 [7] (by decide) (by decide)] else []) [true] (fun _ => .ok)
    [[1, 1], [7, 0, 3, 0, 0x45], [0x00]] ?_ rfl (fun _ => by decide) (by decide) ?_⟩
  · intro i r hr
    split at hr
    · obtain rfl := List.mem_singleton.1 hr
      decide
    · cases hr
  · have hrun : (receivePackets 64 (fun _ => .ok) ([[1, 1], [7, 0, 3, 0, 0x45], [0x00]].map .chunk)).1 =
        .failed .streamClosed := by decide +kernel
    intro e he hlim
    rw [hrun] at he
    cases he
    exact hlim

end WarpSocks.Masque.Capsule
