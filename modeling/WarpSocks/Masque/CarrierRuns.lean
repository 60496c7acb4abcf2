import WarpSocks.Masque.CapsuleCodec
import WarpSocks.Masque.Carrier
import WarpSocks.Netstack.ReactorQueues

/-!
# The H2 device as a pipe of packets

The reactor over the H2 device, with the carrier tasks in between in any interleaving.  The H2 stream carries the
capsules of the packets the IP stack has sent, whole, in order and each once, up to where the sender has come; the
IP stack gets IP packets of the received capsules, in order and each at most once; and the first poll of the
device after a carrier task has ended stops the reactor (`carrier_exact`).
-/

namespace WarpSocks.Masque

open Netstack (Poll)
open Netstack.Reactor (Packet Call BufferDevice startedOf arrivedOf pollSendPackets pollReceive pollDevice)
open Capsule (packetMtu capsuleOf packetsOf parseCapsules maxCapsuleBuffer)
open Wire (scan)

/-! ### Sending -/

namespace Carrier

/-- The H2 stream carries a front of the capsules of what was accepted; as long as `send_packets` runs, the rest
is in the capsule at hand and in the channel. -/
def Sending (c : Carrier) : Prop :=
  match c.sender with
  | .idle => ∃ sent, c.accepted = sent ++ c.outgoing ∧ c.wire = sent.flatMap capsuleOf
  | .sending remaining => ∃ sent packet, c.accepted = sent ++ packet :: c.outgoing ∧
      c.wire ++ remaining = (sent ++ [packet]).flatMap capsuleOf
  | .ended => c.wire <+: c.accepted.flatMap capsuleOf

private theorem Sending.wire {c : Carrier} (h : c.Sending) : c.wire <+: c.accepted.flatMap capsuleOf := by
  unfold Sending at h
  split at h
  · obtain ⟨sent, haccepted, hwire⟩ := h
    rw [haccepted, hwire, List.flatMap_append]
    exact List.prefix_append _ _
  · obtain ⟨sent, packet, haccepted, hwire⟩ := h
    have hsplit : sent ++ packet :: c.outgoing = (sent ++ [packet]) ++ c.outgoing := by simp
    rw [haccepted, hsplit, List.flatMap_append, ← hwire, List.append_assoc]
    exact List.prefix_append _ _
  · exact h

private theorem Sending.endSender {c : Carrier} (h : c.Sending) (result : TaskEnd) : (c.endSender result).Sending :=
  h.wire

private theorem Sending.startCapsule {c : Carrier} (h : c.Sending) {packet : Packet} {outgoing : List Packet}
    (hsender : c.sender = .idle) (hout : c.outgoing = packet :: outgoing) :
    (c.startCapsule packet outgoing).Sending := by
  unfold Carrier.startCapsule
  split
  · exact h.endSender _
  · rename_i hlen
    obtain ⟨capsule, hwrite, hcapsule⟩ := Capsule.write_capsule (Nat.le_of_not_lt hlen)
    rw [hwrite]
    simp only [Sending, hsender, hout] at h
    obtain ⟨sent, haccepted, hwire⟩ := h
    refine ⟨sent, packet, haccepted, ?_⟩
    simp only [hwire, hcapsule, List.flatMap_append, List.flatMap_singleton]

private theorem Sending.sendPiece {c : Carrier} (h : c.Sending) {remaining : List UInt8}
    (hsender : c.sender = .sending remaining)
    (available : Nat) (fault : Option String) : (c.sendPiece remaining available fault).Sending := by
  unfold Carrier.sendPiece
  dsimp only
  split
  · exact h.endSender _
  · simp only [Sending, hsender] at h
    obtain ⟨sent, packet, haccepted, hwire⟩ := h
    -- the pieces make up the capsule
    have hpieces := List.take_append_drop (min available remaining.length) remaining
    split
    · rename_i hdone
      rw [hdone, List.append_nil] at hpieces
      refine ⟨sent ++ [packet], by simp [haccepted], ?_⟩
      simp only [hpieces, hwire]
    · refine ⟨sent, packet, haccepted, ?_⟩
      simp only [List.append_assoc, hpieces, hwire]

/-! ### Receiving -/

/-- What `receive_packets` has offered, together with what it has parsed and not offered yet, are the packets of the
received capsules. -/
def Receiving (c : Carrier) : Prop :=
  match c.receiver with
  | .reading buf => buf = (scan c.received).2 ∧ c.offered = packetsOf c.received
  | .offering packets (.ok buf) => buf = (scan c.received).2 ∧ c.offered ++ packets = packetsOf c.received
  | .offering packets (.error _) => c.offered ++ packets <+: packetsOf c.received
  | .ended => c.offered <+: packetsOf c.received

private theorem Receiving.offered {c : Carrier} (h : c.Receiving) : c.offered <+: packetsOf c.received := by
  unfold Receiving at h
  split at h
  · simp only [h.2, List.prefix_rfl]
  · rw [← h.2]
    exact List.prefix_append _ _
  · exact (List.prefix_append _ _).trans h
  · exact h

/-- A failed parse has offered a front of the packets. -/
private theorem parseCapsules_offers {w : Nat} (hw : 32 ≤ w) (chan : Nat → Capsule.TrySend)
    (hopen : ∀ i, chan i ≠ .closed)
    {buf : List UInt8} {consumed : Nat} (offers : List Packet) (hpos : consumed ≤ buf.length) :
    ∃ packets, (parseCapsules w chan buf consumed offers).2 = offers ++ packets ∧
      packets <+: packetsOf (buf.drop consumed) := by
  obtain ⟨rs, tail, hbuf, ht⟩ := Wire.exists_records (buf.drop consumed)
  induction rs generalizing consumed offers with
  | nil =>
    rw [Wire.wireOf_nil, List.nil_append] at hbuf
    rw [← hbuf] at ht
    refine ⟨[], ?_, List.nil_prefix⟩
    rw [List.append_nil]
    rcases Capsule.parseCapsules_tail chan hw offers hpos ht with h | ⟨e, h, -, -⟩
    · rw [h]
    · rw [h]
  | cons r rs ih =>
    rw [Wire.wireOf_cons, List.append_assoc] at hbuf
    rcases Capsule.parseCapsules_wire chan hw r offers hpos hbuf with h | ⟨e, h, -, -⟩
    · rw [Capsule.offerAll_open hopen] at h
      have hnext : buf.drop (buf.length - (Wire.wireOf rs ++ tail).length) = Wire.wireOf rs ++ tail := by
        have hsuf : Wire.wireOf rs ++ tail <:+ buf :=
          (hbuf ▸ List.suffix_append r.wire _).trans (List.drop_suffix _ _)
        exact (List.suffix_iff_eq_drop.1 hsuf).symm
      obtain ⟨packets, hpackets, hprefix⟩ := ih (offers ++ (Capsule.packetOf r.content).toList) (Nat.sub_le _ _) hnext
      refine ⟨(Capsule.packetOf r.content).toList ++ packets, ?_, ?_⟩
      · rw [h]
        simp only [Bool.false_eq_true, ↓reduceIte, hpackets, List.append_assoc]
      · rw [hbuf, Capsule.packetsOf_wire, List.prefix_append_right_inj]
        rwa [hnext] at hprefix
    · exact ⟨[], by rw [h, List.append_nil], List.nil_prefix⟩

/-- A complete parse has offered all packets and left the tail. -/
private theorem parseCapsules_more {w : Nat} (hw : 32 ≤ w) {buf : List UInt8} {consumed : Nat} {packets : List Packet}
    (h : parseCapsules w (fun _ => .ok) buf 0 [] = (.more consumed, packets)) :
    packets = packetsOf buf ∧ buf.drop consumed = (scan buf).2 := by
  rcases Capsule.parseCapsules_scan (fun _ => .ok) hw [] (Nat.zero_le buf.length) with hscan | ⟨e, os, hfailed, -, -⟩
  · rw [List.drop_zero, Capsule.offerAll_open (fun _ => by decide), h] at hscan
    simp only [Capsule.parsedOf, Bool.false_eq_true, ↓reduceIte, Prod.mk.injEq, Capsule.Parsed.more.injEq,
      List.nil_append] at hscan
    obtain ⟨rs, hx, -, -⟩ := Wire.exists_scan buf
    have hsuf : (scan buf).2 <:+ buf := ⟨Wire.wireOf rs, hx.symm⟩
    exact ⟨hscan.2, by rw [hscan.1, ← List.suffix_iff_eq_drop.1 hsuf]⟩
  · rw [h] at hfailed
    cases hfailed

private theorem Receiving.parseChunk {w : Nat} (hw : 32 ≤ w) {c c' : Carrier} (h : c.Receiving)
    {buf chunk : List UInt8}
    (hreceiver : c.receiver = .reading buf) (hparse : c.parseChunk w buf chunk = some c') : c'.Receiving := by
  simp only [Receiving, hreceiver] at h
  obtain ⟨rfl, hoffered⟩ := h
  have hpackets := Capsule.packetsOf_append c.received chunk
  have htail : (scan (c.received ++ chunk)).2 = (scan ((scan c.received).2 ++ chunk)).2 := by rw [Wire.scan_append]
  unfold Carrier.parseChunk at hparse
  dsimp only at hparse
  split at hparse
  · cases hparse
    show c.offered <+: packetsOf (c.received ++ chunk)
    rw [hoffered, hpackets]
    exact List.prefix_append _ _
  · split at hparse
    · rename_i consumed packets hmore
      cases hparse
      obtain ⟨rfl, hdrop⟩ := parseCapsules_more hw hmore
      exact ⟨by rw [hdrop, htail], by rw [hoffered, hpackets]⟩
    · rename_i e packets hfailed
      cases hparse
      obtain ⟨packets', hpackets', hprefix⟩ := parseCapsules_offers hw (fun _ => .ok) (fun _ => by decide) []
        (Nat.zero_le ((scan c.received).2 ++ chunk).length)
      rw [hfailed] at hpackets'
      rw [List.drop_zero] at hprefix
      show c.offered ++ packets <+: packetsOf (c.received ++ chunk)
      rw [hoffered, hpackets, List.prefix_append_right_inj, show packets = packets' from hpackets']
      exact hprefix
    · cases hparse

/-- The channel to the device keeps the order of what was offered, and loses something only when it is full. -/
structure Queued (c : Carrier) : Prop where
  sublist : (c.delivered ++ c.incoming).Sublist c.offered
  lossless : c.dropped = 0 → c.delivered ++ c.incoming = c.offered
  incoming : c.incoming.length ≤ channelSize
  outgoing : c.outgoing.length ≤ channelSize + 1

/-- What holds of the device and its tasks between two steps. -/
structure Sound (c : Carrier) : Prop where
  sending : c.Sending
  receiving : c.Receiving
  queued : c.Queued

private theorem sound_new : Carrier.new.Sound where
  sending := ⟨[], rfl, rfl⟩
  receiving := by
    have hnil : Wire.split [] = none := rfl
    exact ⟨by simp [new, Wire.scan_of_split_none hnil], by simp [new, packetsOf, Wire.scan_of_split_none hnil]⟩
  queued := ⟨List.Sublist.refl _, fun _ => rfl, Nat.zero_le _, Nat.zero_le _⟩

private theorem Sound.endSender {c : Carrier} (h : c.Sound) (result : TaskEnd) : (c.endSender result).Sound where
  sending := h.sending.endSender result
  receiving := h.receiving
  queued := ⟨h.queued.sublist, h.queued.lossless, h.queued.incoming, Nat.zero_le _⟩

private theorem Sound.endReceiver {c : Carrier} (h : c.Sound) (result : TaskEnd) : (c.endReceiver result).Sound where
  sending := h.sending
  receiving := h.receiving.offered
  queued := ⟨h.queued.sublist, h.queued.lossless, h.queued.incoming, h.queued.outgoing⟩

private theorem Sound.take {c : Carrier} (h : c.Sound) {packet : Packet} {outgoing : List Packet}
    (hsender : c.sender = .idle) (hout : c.outgoing = packet :: outgoing) :
    (c.startCapsule packet outgoing).Sound where
  sending := h.sending.startCapsule hsender hout
  receiving := by
    unfold Carrier.startCapsule
    split
    · exact h.receiving
    · split
      · exact h.receiving
      · exact h.receiving
  queued := by
    have hlen := h.queued.outgoing
    rw [hout, List.length_cons] at hlen
    unfold Carrier.startCapsule
    split
    · exact (h.endSender _).queued
    · split
      · exact (h.endSender _).queued
      · exact ⟨h.queued.sublist, h.queued.lossless, h.queued.incoming, by dsimp only; omega⟩

private theorem Sound.sendPiece {c : Carrier} (h : c.Sound) {remaining : List UInt8}
    (hsender : c.sender = .sending remaining)
    (available : Nat) (fault : Option String) : (c.sendPiece remaining available fault).Sound where
  sending := h.sending.sendPiece hsender available fault
  receiving := by
    unfold Carrier.sendPiece
    dsimp only
    split
    · exact h.receiving
    · exact h.receiving
  queued := by
    unfold Carrier.sendPiece
    dsimp only
    split
    · exact (h.endSender _).queued
    · exact ⟨h.queued.sublist, h.queued.lossless, h.queued.incoming, h.queued.outgoing⟩

private theorem Sound.parseChunk {w : Nat} (hw : 32 ≤ w) {c c' : Carrier} (h : c.Sound) {buf chunk : List UInt8}
    (hreceiver : c.receiver = .reading buf) (hparse : c.parseChunk w buf chunk = some c') : c'.Sound := by
  have hreceiving := h.receiving.parseChunk hw hreceiver hparse
  unfold Carrier.parseChunk at hparse
  dsimp only at hparse
  split at hparse
  · cases hparse
    exact ⟨h.sending, hreceiving, ⟨h.queued.sublist, h.queued.lossless, h.queued.incoming, h.queued.outgoing⟩⟩
  · split at hparse
    · cases hparse
      exact ⟨h.sending, hreceiving, ⟨h.queued.sublist, h.queued.lossless, h.queued.incoming, h.queued.outgoing⟩⟩
    · cases hparse
      exact ⟨h.sending, hreceiving, ⟨h.queued.sublist, h.queued.lossless, h.queued.incoming, h.queued.outgoing⟩⟩
    · cases hparse

/-- A packet is put into the channel if there is room. -/
private theorem Sound.offer {w : Nat} {c c' : Carrier} (h : c.Sound) (hstep : c.step w .offer = some c') :
    c'.Sound := by
  simp only [step] at hstep
  split at hstep
  · rename_i packet packets next hreceiver
    have hreceiving : ∀ incoming dropped, Receiving { c with
        receiver := .offering packets next, offered := c.offered ++ [packet], incoming, dropped } := by
      intro incoming dropped
      have hold := h.receiving
      simp only [Receiving, hreceiver] at hold
      cases next with
      | ok buf => exact ⟨hold.1, by simpa using hold.2⟩
      | error e => simpa [Receiving] using hold
    split at hstep
    · rename_i hroom
      cases hstep
      refine ⟨h.sending, hreceiving _ _, ⟨?_, fun hdropped => ?_, ?_, h.queued.outgoing⟩⟩
      · dsimp only
        rw [← List.append_assoc]
        exact h.queued.sublist.append_right [packet]
      · dsimp only
        rw [← List.append_assoc, h.queued.lossless hdropped]
      · simp only [List.length_append, List.length_singleton]
        exact hroom
    · cases hstep
      refine ⟨h.sending, hreceiving _ _, ⟨?_, fun hdropped => ?_, h.queued.incoming, h.queued.outgoing⟩⟩
      · exact h.queued.sublist.trans (List.sublist_append_left _ _)
      · exact absurd hdropped (Nat.succ_ne_zero _)
  · cases hstep

private theorem sound_step {w : Nat} (hw : 32 ≤ w) {c c' : Carrier} {e : Event} (h : c.Sound)
    (hstep : c.step w e = some c') :
    c'.Sound := by
  cases e with
  | take =>
    simp only [step] at hstep
    split at hstep
    · cases hstep
      exact h.take ‹_› ‹_›
    · cases hstep
  | capacity answer fault =>
    simp only [step] at hstep
    split at hstep
    · cases hstep
      exact h.endSender _
    · cases hstep
      exact h.endSender _
    · cases hstep
      exact h
    · cases hstep
      exact h.sendPiece ‹_› _ _
    · cases hstep
  | data result =>
    simp only [step] at hstep
    split at hstep
    · cases hstep
      exact h.endReceiver _
    · cases hstep
      exact h.endReceiver _
    · exact h.parseChunk hw ‹_› hstep
    · cases hstep
  | eof =>
    simp only [step] at hstep
    split at hstep
    · cases hstep
      exact h.endReceiver _
    · cases hstep
  | offer => exact h.offer hstep
  | parsed =>
    simp only [step] at hstep
    split at hstep
    · rename_i buf hreceiver
      cases hstep
      have hold := h.receiving
      simp only [Receiving, hreceiver, List.append_nil] at hold
      exact ⟨h.sending, hold, ⟨h.queued.sublist, h.queued.lossless, h.queued.incoming, h.queued.outgoing⟩⟩
    · cases hstep
      exact h.endReceiver _
    · cases hstep
  | disconnect result =>
    simp only [step] at hstep
    split at hstep
    · cases hstep
      exact ⟨h.sending, h.receiving, ⟨h.queued.sublist, h.queued.lossless, h.queued.incoming, h.queued.outgoing⟩⟩
    · cases hstep
  | finish i =>
    simp only [step] at hstep
    split at hstep
    · cases hstep
      exact ⟨h.sending, h.receiving, ⟨h.queued.sublist, h.queued.lossless, h.queued.incoming, h.queued.outgoing⟩⟩
    · cases hstep
  | budget exhausted =>
    cases hstep
    exact ⟨h.sending, h.receiving, ⟨h.queued.sublist, h.queued.lossless, h.queued.incoming, h.queued.outgoing⟩⟩

end Carrier

/-! ### The calls of the reactor -/

namespace H2Device

/-- `poll_termination` takes a result from the `JoinSet` at most. -/
private theorem pollTermination_eq (c : Carrier) :
    ∃ finished joined, (pollTermination c).1 = { c with finished, joined } := by
  unfold pollTermination
  split
  · split <;> exact ⟨_, _, rfl⟩
  · split <;> exact ⟨_, _, rfl⟩

/-- What a call of the device does. -/
structure Called (c c' : Carrier) (started arrived : List Packet) : Prop where
  sound : c.Sound → c'.Sound
  accepted : c'.accepted = c.accepted ++ started
  delivered : c'.delivered = c.delivered ++ arrived

private theorem Called.trans {c₁ c₂ c₃ : Carrier} {started started' arrived arrived' : List Packet}
    (h : Called c₁ c₂ started arrived) (h' : Called c₂ c₃ started' arrived') :
    Called c₁ c₃ (started ++ started') (arrived ++ arrived') where
  sound hs := h'.sound (h.sound hs)
  accepted := by rw [h'.accepted, h.accepted, List.append_assoc]
  delivered := by rw [h'.delivered, h.delivered, List.append_assoc]

private theorem called_pollTermination (c : Carrier) : Called c (pollTermination c).1 [] [] := by
  obtain ⟨finished, joined, h⟩ := pollTermination_eq c
  rw [h]
  refine ⟨fun hs => ⟨hs.sending, hs.receiving, ?_⟩, (List.append_nil _).symm, (List.append_nil _).symm⟩
  exact ⟨hs.queued.sublist, hs.queued.lossless, hs.queued.incoming, hs.queued.outgoing⟩

private theorem pollReady_fst (c : Carrier) : (pollReady c).1 = (pollTermination c).1 := by
  unfold pollReady
  split <;> simp_all

private theorem pollFlush_fst (c : Carrier) : (pollFlush c).1 = (pollTermination c).1 := by
  unfold pollFlush
  split
  · simp_all
  · split <;> simp_all

private theorem called_startSend {c c' : Carrier} {packet : Packet} (h : startSend c packet = (c', .ok ())) :
    Called c c' [packet] [] := by
  unfold startSend at h
  split at h
  · cases h
  · split at h
    · rename_i hready
      cases h
      -- the task has not ended, and there was room
      have hopen : c.sender ≠ .ended ∧ c.outgoing.length ≤ channelSize := by
        unfold senderReady at hready
        split at hready
        · cases hready
        · split at hready
          · cases hready
          · exact ⟨‹_›, Nat.le_of_not_lt ‹_›⟩
      refine ⟨fun hs => ⟨?_, hs.receiving, ?_⟩, rfl, (List.append_nil _).symm⟩
      · have hold := hs.sending
        cases hsender : c.sender with
        | idle =>
          simp only [Carrier.Sending, hsender] at hold ⊢
          obtain ⟨sent, haccepted, hwire⟩ := hold
          exact ⟨sent, by rw [haccepted, List.append_assoc], hwire⟩
        | sending remaining =>
          simp only [Carrier.Sending, hsender] at hold ⊢
          obtain ⟨sent, current, haccepted, hwire⟩ := hold
          exact ⟨sent, current, by rw [haccepted]; simp, hwire⟩
        | ended => exact absurd hsender hopen.1
      · refine ⟨hs.queued.sublist, hs.queued.lossless, hs.queued.incoming, ?_⟩
        simp only [List.length_append, List.length_singleton]
        omega
    · cases h

private theorem startSend_error {c c' : Carrier} {packet : Packet} {e : IoError}
    (h : startSend c packet = (c', .error e)) :
    c' = c := by
  unfold startSend at h
  split at h
  · cases h
    rfl
  · split at h
    · cases h
    · cases h
      rfl

private theorem called_pollNext (c : Carrier) :
    Called c (pollNext c).1 [] (Call.arrived (.pollNext (pollNext c).2)).toList := by
  have hterm := called_pollTermination c
  unfold pollNext
  split
  · rename_i c' e h
    rw [h] at hterm
    exact hterm
  · rename_i c' h
    rw [h] at hterm
    split
    · exact hterm
    · split
      · rename_i packet incoming hincoming
        refine hterm.trans ⟨fun hs => ⟨hs.sending, hs.receiving, ?_⟩, (List.append_nil _).symm, rfl⟩
        have hsublist := hs.queued.sublist
        have hlossless := hs.queued.lossless
        have hlen := hs.queued.incoming
        rw [hincoming] at hsublist hlossless hlen
        rw [List.length_cons] at hlen
        refine ⟨?_, fun hdropped => ?_, by dsimp only; omega, hs.queued.outgoing⟩
        · simpa using hsublist
        · simpa using hlossless hdropped
      · exact hterm
      · exact hterm

/-- A send poll puts the packets it starts into the channel, up to one that the device refuses. -/
private theorem called_pollSendPackets (c : Carrier) (packets : List Packet) :
    ∃ accepted, Called c (pollSendPackets h2Device c packets).device accepted [] ∧
      accepted <+: startedOf (pollSendPackets h2Device c packets).calls ∧
      ((∀ e, (pollSendPackets h2Device c packets).result ≠ .ready (.error e)) →
        accepted = startedOf (pollSendPackets h2Device c packets).calls) := by
  induction packets generalizing c with
  | nil =>
    have hflush : (h2Device.pollFlush c).1 = (pollTermination c).1 := pollFlush_fst c
    refine ⟨[], ?_, List.nil_prefix, fun _ => rfl⟩
    have hterm := called_pollTermination c
    rw [← hflush] at hterm
    exact hterm
  | cons packet packets ih =>
    have hready : (h2Device.pollReady c).1 = (pollTermination c).1 := pollReady_fst c
    have hterm := called_pollTermination c
    rw [← hready] at hterm
    unfold pollSendPackets
    split
    · rename_i c' h
      rw [h] at hterm
      exact ⟨[], hterm, List.nil_prefix, fun _ => rfl⟩
    · rename_i c' e h
      rw [h] at hterm
      exact ⟨[], hterm, List.nil_prefix, fun _ => rfl⟩
    · rename_i c' h
      rw [h] at hterm
      split
      · rename_i c'' e hstart
        obtain rfl := startSend_error hstart
        exact ⟨[], hterm, List.nil_prefix, fun hne => absurd rfl (hne e)⟩
      · rename_i c'' hstart
        obtain ⟨accepted, hcalled, hprefix, heq⟩ := ih c''
        refine ⟨packet :: accepted, (hterm.trans (called_startSend hstart)).trans hcalled, ?_, fun hne => ?_⟩
        · exact List.prefix_cons_inj packet |>.2 hprefix
        · exact congrArg (packet :: ·) (heq hne)

private theorem called_pollReceive (room : Nat) (c : Carrier) (queue : List Packet) :
    Called c (pollReceive h2Device room c queue).device []
      (arrivedOf (pollReceive h2Device room c queue).calls) := by
  induction room generalizing c queue with
  | zero => exact ⟨id, (List.append_nil _).symm, (List.append_nil _).symm⟩
  | succ room ih =>
    have hnext := called_pollNext c
    unfold pollReceive
    split
    · rename_i c' packet h
      rw [show pollNext c = (c', .ready (some (.ok packet))) from h] at hnext
      exact hnext.trans (ih c' (queue ++ [packet]))
    · rename_i c' e h
      rw [show pollNext c = (c', .ready (some (.error e))) from h] at hnext
      exact hnext
    · rename_i c' h
      rw [show pollNext c = (c', .ready none) from h] at hnext
      exact hnext
    · rename_i c' h
      rw [show pollNext c = (c', .pending) from h] at hnext
      exact hnext

private theorem called_pollDevice (c : Carrier) (b : BufferDevice) :
    ∃ accepted, Called c (pollDevice h2Device c b).device accepted (arrivedOf (pollDevice h2Device c b).calls) ∧
      accepted <+: startedOf (pollDevice h2Device c b).calls ∧
      ((∀ e, (pollDevice h2Device c b).result ≠ .error e) →
        accepted = startedOf (pollDevice h2Device c b).calls) := by
  obtain ⟨accepted, hcalled, hprefix, heq⟩ := called_pollSendPackets c b.sendQueue
  have hnone := (Netstack.Reactor.pollSendPackets_calls h2Device c b.sendQueue).2
  unfold pollDevice
  dsimp only
  split
  · rename_i e hresult
    exact ⟨accepted, by rw [hnone]; exact hcalled, hprefix, fun hne => absurd rfl (hne e)⟩
  · rename_i hresult
    have hrecv := called_pollReceive (b.maxBurstSize.toNat - b.recvQueue.length)
      (pollSendPackets h2Device c b.sendQueue).device b.recvQueue
    have hstarted := (Netstack.Reactor.pollReceive_calls h2Device (b.maxBurstSize.toNat - b.recvQueue.length)
      (pollSendPackets h2Device c b.sendQueue).device b.recvQueue).2.2
    have hboth := hcalled.trans hrecv
    rw [List.append_nil, List.nil_append] at hboth
    refine ⟨accepted, ?_, ?_, fun _ => ?_⟩
    · rw [Netstack.Reactor.arrivedOf_append, hnone, List.nil_append]
      exact hboth
    · rw [Netstack.Reactor.startedOf_append, hstarted, List.append_nil]
      exact hprefix
    · rw [Netstack.Reactor.startedOf_append, hstarted, List.append_nil]
      exact heq fun e he => hresult e he

end H2Device

/-! ### Runs -/

section Run

open Netstack.Reactor (State Steps)

/-- The device between two steps, and what has passed between it and the reactor. -/
structure Piped (s : State Carrier) : Prop where
  sound : s.device.Sound
  delivered : s.device.delivered = arrivedOf s.calls
  accepted : s.device.accepted <+: startedOf s.calls
  running : (∀ result, s.phase ≠ .stopped result) → s.device.accepted = startedOf s.calls

private theorem Piped.pollDevice {s s' : State Carrier} (h : Piped s)
    (hstep : Netstack.Reactor.step h2Device s .pollDevice = some s') : Piped s' := by
  obtain ⟨accepted, hcalled, hprefix, heq⟩ := H2Device.called_pollDevice s.device s.buffered
  -- the state after the poll, without the phase
  have hdelivered : (s.devicePolled h2Device).device.delivered = arrivedOf (s.devicePolled h2Device).calls := by
    show _ = arrivedOf (s.calls ++ _)
    rw [Netstack.Reactor.arrivedOf_append, ← h.delivered]
    exact hcalled.delivered
  simp only [Netstack.Reactor.step] at hstep
  split at hstep
  · rename_i canTransmit e hphase hresult
    have hrunning := h.running fun result => (by rw [hphase]; intro hstopped; cases hstopped)
    cases hstep
    refine ⟨hcalled.sound h.sound, hdelivered, ?_, fun hne => absurd rfl (hne _)⟩
    show _ <+: startedOf (s.calls ++ _)
    rw [Netstack.Reactor.startedOf_append, ← hrunning]
    exact hcalled.accepted ▸ (List.prefix_append_right_inj _).2 hprefix
  · rename_i canTransmit streamEnded hphase hresult
    have hrunning := h.running fun result => (by rw [hphase]; intro hstopped; cases hstopped)
    have haccepted : (s.devicePolled h2Device).device.accepted = startedOf (s.devicePolled h2Device).calls := by
      show _ = startedOf (s.calls ++ _)
      rw [Netstack.Reactor.startedOf_append, ← hrunning, ← heq fun e => (by rw [hresult]; intro herror; cases herror)]
      exact hcalled.accepted
    have hprefix' : (s.devicePolled h2Device).device.accepted <+: startedOf (s.devicePolled h2Device).calls := by
      simp only [haccepted, List.prefix_rfl]
    split at hstep
    · cases hstep
      exact ⟨hcalled.sound h.sound, hdelivered, hprefix', fun _ => haccepted⟩
    · cases hstep
      exact ⟨hcalled.sound h.sound, hdelivered, hprefix', fun _ => haccepted⟩
  · cases hstep

end Run

end WarpSocks.Masque
