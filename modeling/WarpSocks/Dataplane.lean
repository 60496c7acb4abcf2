import WarpSocks.Table.History

/-!
# The bulk flow in the report of the data plane

`BulkFlowCounters` of `dataplane.rs` keeps the ports and numbers of the last large segment that was received, and
the numbers of the last empty ACK that was sent in the reverse direction.  The two are separate counters: a
segment of another flow replaces the ports and leaves the ACK (`summary_ack_iff`).  Counters are `u64`s; ports,
sequence and acknowledgement numbers fit into the bits they are stored in.
-/

namespace WarpSocks.Dataplane

/-- `Direction`. -/
inductive Direction where
  | rx
  | tx
  deriving DecidableEq

/-- What is read of a `smoltcp::wire::TcpPacket`. -/
structure TcpPacket where
  srcPort : UInt16
  dstPort : UInt16
  seqNumber : UInt32
  ackNumber : UInt32
  ack : Bool
  payload : List UInt8

/-- `BulkFlowCounters`. -/
structure BulkFlowCounters where
  ports : Nat
  rxAtMs : Nat
  rxSeq : Nat
  rxAck : Nat
  rxPayloadLen : Nat
  ackAtMs : Nat
  ackSeq : Nat
  ackAck : Nat
  deriving DecidableEq

/-- `u64::saturating_add`. -/
def saturatingAdd (a b : Nat) : Nat := min (a + b) (UInt64.size - 1)

namespace BulkFlowCounters

/-- `BulkFlowCounters::default`. -/
def empty : BulkFlowCounters := ⟨0, 0, 0, 0, 0, 0, 0, 0⟩

/-- The two ports in one number. -/
def packPorts (src dst : UInt16) : Nat := (src.toNat <<< 16) ||| dst.toNat

/-- `BulkFlowCounters::record`. -/
def record (s : BulkFlowCounters) (direction : Direction) (nowMs : Nat) (packet : TcpPacket) : BulkFlowCounters :=
  let ports := packPorts packet.srcPort packet.dstPort
  match direction with
  | .rx =>
    if 1000 ≤ packet.payload.length then
      { s with
        ports := ports
        rxAtMs := saturatingAdd nowMs 1
        rxSeq := packet.seqNumber.toNat
        rxAck := packet.ackNumber.toNat
        rxPayloadLen := packet.payload.length }
    else s
  | .tx =>
    if packet.ack && packet.payload.isEmpty then
      let bulkPorts := s.ports
      let reverse := ((bulkPorts &&& 0xffff) <<< 16) ||| (bulkPorts >>> 16)
      if bulkPorts ≠ 0 ∧ ports = reverse then
        { s with
          ackAtMs := saturatingAdd nowMs 1
          ackSeq := packet.seqNumber.toNat
          ackAck := packet.ackNumber.toNat }
      else s
    else s

end BulkFlowCounters

/-- The ACK in a report. -/
structure AckReport where
  seq : Nat
  ack : Nat
  ageMs : Nat
  deriving DecidableEq

/-- What a report shows of a bulk flow. -/
structure Report where
  src : Nat
  dst : Nat
  rxSeq : Nat
  rxAck : Nat
  rxPayload : Nat
  rxAgeMs : Nat
  ack : Option AckReport
  deriving DecidableEq

/-- The ACK in the text of a report. -/
def AckReport.text : Option AckReport → String
  | none => "none"
  | some a => s!"seq:{a.seq},ack:{a.ack},age_ms:{a.ageMs}"

/-- The text of a report. -/
def Report.text (r : Report) : String :=
  s!"{r.src}>{r.dst},rx_seq:{r.rxSeq},rx_ack:{r.rxAck},rx_payload:{r.rxPayload},rx_age_ms:{r.rxAgeMs},ack:{AckReport.text r.ack}"

namespace BulkFlowCounters

/-- What `summary` shows: nothing, or the flow and the ACK. -/
def report (s : BulkFlowCounters) (nowMs : Nat) : Option Report :=
  if s.ports = 0 ∨ s.rxAtMs = 0 then none
  else
    let ack :=
      if s.ackAtMs = 0 then none
      else some ⟨s.ackSeq % UInt32.size, s.ackAck % UInt32.size, nowMs - (s.ackAtMs - 1)⟩
    some ⟨s.ports >>> 16, s.ports &&& 0xffff, s.rxSeq % UInt32.size, s.rxAck % UInt32.size, s.rxPayloadLen,
      nowMs - (s.rxAtMs - 1), ack⟩

/-- `BulkFlowCounters::summary`. -/
def summary (s : BulkFlowCounters) (nowMs : Nat) : String :=
  match s.report nowMs with
  | none => "none"
  | some r => r.text

end BulkFlowCounters

/-! ### Calls -/

/-- A call of `record`. -/
structure Call where
  direction : Direction
  nowMs : Nat
  packet : TcpPacket

open BulkFlowCounters (packPorts)

/-- The counters after the calls. -/
def after (calls : List Call) : BulkFlowCounters :=
  calls.foldl (fun s c => s.record c.direction c.nowMs c.packet) .empty

/-- The ports of a large segment that is received. -/
def Call.bulkFlow (c : Call) : Option (UInt16 × UInt16) :=
  if c.direction = .rx ∧ 1000 ≤ c.packet.payload.length then some (c.packet.srcPort, c.packet.dstPort) else none

/-- The flow of the last large segment. -/
def lastFlow (calls : List Call) : Option (UInt16 × UInt16) := (calls.filterMap Call.bulkFlow).getLast?

/-- An empty ACK that is sent, with the ports of the last large segment before it reversed.  A flow from port 0 to
port 0 counts as none. -/
def Acks (before : List Call) (c : Call) : Prop :=
  c.direction = .tx ∧ c.packet.ack = true ∧ c.packet.payload = [] ∧
    lastFlow before = some (c.packet.dstPort, c.packet.srcPort) ∧ (c.packet.dstPort, c.packet.srcPort) ≠ (0, 0)

/-! ### Ports in one number -/

private theorem packPorts_eq (src dst : UInt16) : packPorts src dst = src.toNat * 65536 + dst.toNat := by
  rw [packPorts, ← Nat.shiftLeft_add_eq_or_of_lt dst.toNat_lt, Nat.shiftLeft_eq]

@[simp] theorem packPorts_shiftRight (src dst : UInt16) : packPorts src dst >>> 16 = src.toNat := by
  have hdst : dst.toNat < 65536 := dst.toNat_lt
  rw [packPorts_eq, Nat.shiftRight_eq_div_pow]
  omega

@[simp] theorem packPorts_and (src dst : UInt16) : packPorts src dst &&& 0xffff = dst.toNat := by
  have hdst : dst.toNat < 65536 := dst.toNat_lt
  rw [packPorts_eq, Nat.and_two_pow_sub_one_eq_mod _ 16]
  omega

private theorem packPorts_inj {src dst src' dst' : UInt16} :
    packPorts src dst = packPorts src' dst' ↔ (src, dst) = (src', dst') := by
  constructor
  · intro h
    have hsrc := congrArg (· >>> 16) h
    have hdst := congrArg (· &&& 0xffff) h
    simp only [packPorts_shiftRight, packPorts_and, UInt16.toNat_inj] at hsrc hdst
    rw [hsrc, hdst]
  · intro h
    cases h
    rfl

/-! ### What the counters hold -/

private theorem after_concat (calls : List Call) (c : Call) :
    after (calls ++ [c]) = (after calls).record c.direction c.nowMs c.packet := by
  rw [after, List.foldl_append]
  rfl

private theorem lastFlow_concat (calls : List Call) (c : Call) :
    lastFlow (calls ++ [c]) = c.bulkFlow.or (lastFlow calls) := by
  rw [lastFlow, List.filterMap_append, List.getLast?_append]
  cases h : c.bulkFlow <;> simp [h, lastFlow]

/-- The counter of ports holds the flow of the last large segment. -/
def HoldsFlow (calls : List Call) : Prop :=
  (after calls).ports = ((lastFlow calls).map fun flow => packPorts flow.1 flow.2).getD 0

/-- The reversed ports that `record` compares with are those of an ACK of the flow. -/
private theorem reverse_iff {calls : List Call} (h : HoldsFlow calls) (src dst : UInt16) :
    ((after calls).ports ≠ 0 ∧
        packPorts src dst = (((after calls).ports &&& 0xffff) <<< 16) ||| ((after calls).ports >>> 16)) ↔
      lastFlow calls = some (dst, src) ∧ (dst, src) ≠ (0, 0) := by
  have hzero : (0 : Nat) = packPorts 0 0 := rfl
  rw [HoldsFlow] at h
  cases hflow : lastFlow calls with
  | none => simp [h, hflow]
  | some flow =>
    obtain ⟨a, b⟩ := flow
    have hports : (after calls).ports = packPorts a b := by rw [h, hflow]; rfl
    have hreverse : ((packPorts a b &&& 0xffff) <<< 16) ||| (packPorts a b >>> 16) = packPorts b a := by
      rw [packPorts_and, packPorts_shiftRight, packPorts]
    rw [hports, hreverse, hzero, Ne, packPorts_inj, packPorts_inj, Option.some.injEq]
    constructor
    · rintro ⟨hne, hpair⟩
      cases hpair
      exact ⟨rfl, hne⟩
    · rintro ⟨hpair, hne⟩
      cases hpair
      exact ⟨hne, rfl⟩

/-- What a call does: it takes over a large segment, or the numbers of an ACK, or nothing. -/
private theorem after_concat_cases {calls : List Call} (h : HoldsFlow calls) (c : Call) :
    (c.bulkFlow = some (c.packet.srcPort, c.packet.dstPort) ∧ ¬Acks calls c ∧
      after (calls ++ [c]) = { after calls with
        ports := packPorts c.packet.srcPort c.packet.dstPort
        rxAtMs := saturatingAdd c.nowMs 1
        rxSeq := c.packet.seqNumber.toNat
        rxAck := c.packet.ackNumber.toNat
        rxPayloadLen := c.packet.payload.length }) ∨
    (c.bulkFlow = none ∧ Acks calls c ∧
      after (calls ++ [c]) = { after calls with
        ackAtMs := saturatingAdd c.nowMs 1
        ackSeq := c.packet.seqNumber.toNat
        ackAck := c.packet.ackNumber.toNat }) ∨
    (c.bulkFlow = none ∧ ¬Acks calls c ∧ after (calls ++ [c]) = after calls) := by
  obtain ⟨direction, nowMs, packet⟩ := c
  rw [after_concat]
  cases direction with
  | rx =>
    have hacks : ¬Acks calls ⟨.rx, nowMs, packet⟩ := fun hacks => nomatch hacks.1
    by_cases hlen : 1000 ≤ packet.payload.length
    · exact .inl ⟨if_pos ⟨rfl, hlen⟩, hacks, if_pos hlen⟩
    · exact .inr (.inr ⟨if_neg fun hbulk => hlen hbulk.2, hacks, if_neg hlen⟩)
  | tx =>
    have hbulk : Call.bulkFlow ⟨.tx, nowMs, packet⟩ = none := if_neg fun hbulk => nomatch hbulk.1
    have hreverse := reverse_iff h packet.srcPort packet.dstPort
    by_cases hempty : packet.ack = true ∧ packet.payload = []
    · have hguard : (packet.ack && packet.payload.isEmpty) = true := by simp [hempty]
      by_cases hports : lastFlow calls = some (packet.dstPort, packet.srcPort) ∧
        (packet.dstPort, packet.srcPort) ≠ (0, 0)
      · refine .inr (.inl ⟨hbulk, ⟨rfl, hempty.1, hempty.2, hports⟩, ?_⟩)
        simp only [BulkFlowCounters.record, hguard, ↓reduceIte, if_pos (hreverse.2 hports)]
      · refine .inr (.inr ⟨hbulk, fun hacks => hports hacks.2.2.2, ?_⟩)
        simp only [BulkFlowCounters.record, hguard, ↓reduceIte, if_neg (mt hreverse.1 hports)]
    · have hguard : (packet.ack && packet.payload.isEmpty) ≠ true := by simpa using hempty
      refine .inr (.inr ⟨hbulk, fun hacks => hempty ⟨hacks.2.1, hacks.2.2.1⟩, ?_⟩)
      simp only [BulkFlowCounters.record, if_neg hguard]

private theorem saturatingAdd_one_ne_zero (a : Nat) : saturatingAdd a 1 ≠ 0 := by
  rw [saturatingAdd]
  simp only [show UInt64.size - 1 = 18446744073709551615 from rfl]
  omega

private theorem holdsFlow (calls : List Call) : HoldsFlow calls := by
  induction calls using List.reverseRecOn with
  | nil => rfl
  | append_singleton calls c ih =>
    rw [HoldsFlow, lastFlow_concat]
    rcases after_concat_cases ih c with ⟨hbulk, -, hafter⟩ | ⟨hbulk, -, hafter⟩ | ⟨hbulk, -, hafter⟩
    · rw [hafter, hbulk]
      rfl
    · rw [hafter, hbulk, Option.none_or]
      exact ih
    · rw [hafter, hbulk, Option.none_or]
      exact ih

private theorem rxAtMs_eq_zero_iff (calls : List Call) : (after calls).rxAtMs = 0 ↔ lastFlow calls = none := by
  induction calls using List.reverseRecOn with
  | nil => exact iff_of_true rfl rfl
  | append_singleton calls c ih =>
    rw [lastFlow_concat]
    rcases after_concat_cases (holdsFlow calls) c with ⟨hbulk, -, hafter⟩ | ⟨hbulk, -, hafter⟩ | ⟨hbulk, -, hafter⟩
    · rw [hafter, hbulk]
      simp [saturatingAdd_one_ne_zero]
    · rw [hafter, hbulk, Option.none_or]
      exact ih
    · rw [hafter, hbulk, Option.none_or]
      exact ih

/-- The counters of the ACK hold the numbers of the last one, if there is one. -/
def HoldsAck (calls : List Call) : Prop :=
  ((∀ i c, ¬Table.LastAt Acks calls i c) ∧ (after calls).ackAtMs = 0) ∨
    ∃ i c, Table.LastAt Acks calls i c ∧ (after calls).ackAtMs ≠ 0 ∧ (after calls).ackSeq = c.packet.seqNumber.toNat ∧
      (after calls).ackAck = c.packet.ackNumber.toNat

/-- A call that is no ACK of the flow leaves them. -/
private theorem HoldsAck.keep {calls : List Call} {c : Call} (h : HoldsAck calls) (hacks : ¬Acks calls c)
    (hat : (after (calls ++ [c])).ackAtMs = (after calls).ackAtMs)
    (hseq : (after (calls ++ [c])).ackSeq = (after calls).ackSeq)
    (hack : (after (calls ++ [c])).ackAck = (after calls).ackAck) : HoldsAck (calls ++ [c]) := by
  rw [HoldsAck, hat, hseq, hack]
  simp only [Table.lastAt_concat, hacks, false_and, not_false_eq_true, true_and, false_or]
  exact h

private theorem holdsAck (calls : List Call) : HoldsAck calls := by
  induction calls using List.reverseRecOn with
  | nil => exact .inl ⟨fun i c h => (nomatch h.get), rfl⟩
  | append_singleton calls c ih =>
    rcases after_concat_cases (holdsFlow calls) c with ⟨-, hacks, hafter⟩ | ⟨-, hacks, hafter⟩ | ⟨-, hacks, hafter⟩
    · exact ih.keep hacks (by rw [hafter]) (by rw [hafter]) (by rw [hafter])
    · refine .inr ⟨calls.length, c, .of_concat hacks, ?_⟩
      rw [hafter]
      exact ⟨saturatingAdd_one_ne_zero _, rfl, rfl⟩
    · exact ih.keep hacks (by rw [hafter]) (by rw [hafter]) (by rw [hafter])

/-! ### The report -/

/-- If the report shows an ACK, its numbers were taken from a packet that was sent with the ports that the report
shows reversed. -/
def AckOfFlow (calls : List Call) (nowMs : Nat) : Prop :=
  ∀ r a, (after calls).report nowMs = some r → r.ack = some a →
    ∃ i c, Table.LastAt Acks calls i c ∧ a.seq = c.packet.seqNumber.toNat ∧ a.ack = c.packet.ackNumber.toNat ∧
      (r.src, r.dst) = (c.packet.dstPort.toNat, c.packet.srcPort.toNat)

/-- Without a large segment nothing is shown, and neither if its ports are both 0. -/
private theorem report_eq_none {calls : List Call} (h : ∀ flow, lastFlow calls = some flow → flow = (0, 0))
    (nowMs : Nat) :
    (after calls).report nowMs = none := by
  refine if_pos ?_
  cases hflow : lastFlow calls with
  | none => exact .inr ((rxAtMs_eq_zero_iff calls).2 hflow)
  | some flow =>
    have hports := holdsFlow calls
    rw [HoldsFlow, hflow, h flow hflow] at hports
    exact .inl hports

/-- Otherwise the flow of the last large segment is shown, with the ACK that the counters hold. -/
private theorem report_eq_some {calls : List Call} {src dst : UInt16} (h : lastFlow calls = some (src, dst))
    (hne : (src, dst) ≠ (0, 0)) (nowMs : Nat) :
    ∃ r, (after calls).report nowMs = some r ∧ r.src = src.toNat ∧ r.dst = dst.toNat ∧
      r.ack = if (after calls).ackAtMs = 0 then none
        else some ⟨(after calls).ackSeq % UInt32.size, (after calls).ackAck % UInt32.size,
          nowMs - ((after calls).ackAtMs - 1)⟩ := by
  have hports : (after calls).ports = packPorts src dst := by
    have hflow := holdsFlow calls
    rw [HoldsFlow, h] at hflow
    exact hflow
  have hshown : ¬((after calls).ports = 0 ∨ (after calls).rxAtMs = 0) := by
    rw [rxAtMs_eq_zero_iff, h, hports, show (0 : Nat) = packPorts 0 0 from rfl, packPorts_inj]
    simp only [reduceCtorEq, or_false]
    exact hne
  refine ⟨_, if_neg hshown, ?_, ?_, rfl⟩
  · show (after calls).ports >>> 16 = _
    rw [hports, packPorts_shiftRight]
  · show (after calls).ports &&& 0xffff = _
    rw [hports, packPorts_and]

/-- The ACK of a report is one of the flow that the report shows exactly if the last large segment belongs to the
flow of the last ACK.  A flow from port 0 to port 0 is not shown. -/
theorem summary_ack_iff (calls : List Call) (nowMs : Nat) :
    AckOfFlow calls nowMs ↔
      ∀ i c flow, Table.LastAt Acks calls i c → lastFlow calls = some flow →
        flow = (c.packet.dstPort, c.packet.srcPort) ∨ flow = (0, 0) := by
  constructor
  · rintro h i c ⟨src, dst⟩ hlast hflow
    by_cases hzero : (src, dst) = (0, 0)
    · exact .inr hzero
    obtain ⟨r, hr, hsrc, hdst, hack⟩ := report_eq_some hflow hzero nowMs
    rcases holdsAck calls with ⟨hnone, -⟩ | ⟨j, d, -, hat, -, -⟩
    · exact absurd hlast (hnone i c)
    · rw [if_neg hat] at hack
      obtain ⟨k, e, he, -, -, hports⟩ := h r _ hr hack
      obtain ⟨-, rfl⟩ := hlast.unique he
      rw [hsrc, hdst, Prod.mk.injEq, UInt16.toNat_inj, UInt16.toNat_inj] at hports
      rw [hports.1, hports.2]
      exact .inl rfl
  · intro h r a hr ha
    by_cases hshown : ∃ flow, lastFlow calls = some flow ∧ flow ≠ (0, 0)
    · obtain ⟨⟨src, dst⟩, hflow, hzero⟩ := hshown
      obtain ⟨r', hr', hsrc, hdst, hack⟩ := report_eq_some hflow hzero nowMs
      obtain rfl : r' = r := Option.some.inj (hr'.symm.trans hr)
      rcases holdsAck calls with ⟨-, hat⟩ | ⟨i, c, hlast, hat, hseq, hnumber⟩
      · rw [if_pos hat, ha] at hack
        cases hack
      · rw [if_neg hat, ha, Option.some.injEq, hseq, hnumber, Nat.mod_eq_of_lt (UInt32.toNat_lt _),
          Nat.mod_eq_of_lt (UInt32.toNat_lt _)] at hack
        have hports := (h i c (src, dst) hlast hflow).resolve_right hzero
        rw [Prod.mk.injEq] at hports
        refine ⟨i, c, hlast, by rw [hack], by rw [hack], ?_⟩
        rw [hsrc, hdst, hports.1, hports.2]
    · have hnone : ∀ flow, lastFlow calls = some flow → flow = (0, 0) := fun flow hflow =>
        not_not.1 fun hne => hshown ⟨flow, hflow, hne⟩
      rw [report_eq_none hnone] at hr
      cases hr

/-- A segment of a second flow leaves the ACK of the first one in the report. -/
theorem summary_ack_of_old_flow :
    let bulk : TcpPacket := ⟨443, 12345, 100, 200, true, List.replicate 1240 0⟩
    let ack : TcpPacket := ⟨12345, 443, 200, 1340, true, []⟩
    let other : TcpPacket := ⟨80, 23456, 500, 600, true, List.replicate 1240 0⟩
    let calls : List Call := [⟨.rx, 0, bulk⟩, ⟨.tx, 1, ack⟩, ⟨.rx, 2, other⟩]
    (after calls).summary 3 =
      "80>23456,rx_seq:500,rx_ack:600,rx_payload:1240,rx_age_ms:1,ack:seq:200,ack:1340,age_ms:2" ∧
      ¬AckOfFlow calls 3 := by
  intro bulk ack other calls
  refine ⟨by decide +kernel, fun h => ?_⟩
  have hreport : (after calls).report 3 = some ⟨80, 23456, 500, 600, 1240, 1, some ⟨200, 1340, 2⟩⟩ := by
    decide +kernel
  obtain ⟨i, c, hlast, -, -, hports⟩ := h _ _ hreport rfl
  have hmem : c ∈ calls := List.mem_of_getElem? hlast.get
  have htx : c.direction = .tx := hlast.kind.1
  simp only [calls, List.mem_cons, List.not_mem_nil, or_false] at hmem
  rcases hmem with rfl | rfl | rfl
  · cases htx
  · exact absurd hports (by decide)
  · cases htx

end WarpSocks.Dataplane
