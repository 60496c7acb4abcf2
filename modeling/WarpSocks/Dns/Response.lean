import WarpSocks.Dns.Message
import WarpSocks.Wire.Name

/-!
# What is read from a DNS response

No buffer makes `parse_dns_response` read behind its end: each of its parts is safe for every buffer and position
(`safe_skipName`, `safe_skipQuestions`, `safe_readAnswers`).

For a response as RFC 1035 lays it out (`Response`), each part is exact where it stands in the buffer: it returns
what is written there and the position behind it (`skipName_wire`, `skipQuestions_wire`, `readAnswers_wire`).
-/

namespace WarpSocks.Dns

open Machine (Checked)
open Machine.Checked (Safe safe_bind safe_pure safe_throw safe_index safe_slice)

private theorem safe_u16At {buf : List UInt8} {pos : Nat} (h : pos + 2 ≤ buf.length) : Safe (u16At buf pos) := by
  refine safe_bind (safe_index (by omega)) fun _ _ => ?_
  exact safe_bind (safe_index (by omega)) fun _ _ => safe_pure _

private theorem safe_u32At {buf : List UInt8} {pos : Nat} (h : pos + 4 ≤ buf.length) : Safe (u32At buf pos) := by
  refine safe_bind (safe_index (by omega)) fun _ _ => ?_
  refine safe_bind (safe_index (by omega)) fun _ _ => ?_
  refine safe_bind (safe_index (by omega)) fun _ _ => ?_
  exact safe_bind (safe_index (by omega)) fun _ _ => safe_pure _

theorem safe_skipName (buf : List UInt8) (pos : Nat) : Safe (skipName buf pos) := by
  induction hk : buf.length - pos using Nat.strongRecOn generalizing pos with
  | ind k ih =>
    rw [skipName]
    by_cases hpos : buf.length ≤ pos
    · rw [if_pos hpos]
      exact safe_throw _
    · rw [if_neg hpos]
      refine safe_bind (safe_index (by omega)) fun len _ => ?_
      split
      · exact safe_pure _
      · split
        · split
          · exact safe_throw _
          · exact safe_pure _
        · exact ih _ (by omega) _ rfl

private theorem safe_checkHeader (buf : List UInt8) (expectedId : UInt16) : Safe (checkHeader buf expectedId) := by
  unfold checkHeader
  split
  · exact safe_throw _
  · refine safe_bind (safe_u16At (by omega)) fun id _ => ?_
    split
    · exact safe_throw _
    · refine safe_bind (safe_u16At (by omega)) fun flags _ => ?_
      split
      · exact safe_throw _
      · split
        · exact safe_throw _
        · split
          · exact safe_pure _
          · exact safe_throw _
          · exact safe_throw _

/-- Behind the checks the buffer holds a header. -/
private theorem length_of_checkHeader {buf : List UInt8} {expectedId : UInt16}
    (h : checkHeader buf expectedId = pure ()) : 12 ≤ buf.length := by
  by_contra hlt
  unfold checkHeader at h
  rw [if_pos (by omega)] at h
  cases h

theorem safe_skipQuestions (buf : List UInt8) (n pos : Nat) : Safe (skipQuestions buf n pos) := by
  induction n generalizing pos with
  | zero => exact safe_pure _
  | succ n ih =>
    refine safe_bind (safe_skipName buf pos) fun pos' _ => ?_
    split
    · exact safe_throw _
    · exact ih _

private theorem safe_addressAt {buf : List UInt8} {pos rdlength : Nat} (h : pos + rdlength ≤ buf.length)
    (recordType : RecordType) (rtype : UInt16) : Safe (addressAt buf recordType pos rtype rdlength) := by
  unfold addressAt
  split
  · refine safe_bind (safe_index (by omega)) fun _ _ => ?_
    refine safe_bind (safe_index (by omega)) fun _ _ => ?_
    refine safe_bind (safe_index (by omega)) fun _ _ => ?_
    exact safe_bind (safe_index (by omega)) fun _ _ => safe_pure _
  · exact safe_bind (safe_slice h) fun _ _ => safe_pure _
  · exact safe_pure _

theorem safe_readAnswers (buf : List UInt8) (recordType : RecordType) (n pos : Nat) (addrs : List IpAddr)
    (minTtl : UInt32) : Safe (readAnswers buf recordType n pos addrs minTtl) := by
  induction n generalizing pos addrs minTtl with
  | zero => exact safe_pure _
  | succ n ih =>
    refine safe_bind (safe_skipName buf pos) fun pos' _ => ?_
    split
    · exact safe_throw _
    · refine safe_bind (safe_u16At (by omega)) fun rtype _ => ?_
      refine safe_bind (safe_u32At (by omega)) fun ttl _ => ?_
      refine safe_bind (safe_u16At (by omega)) fun rdlength _ => ?_
      dsimp only
      split
      · exact safe_throw _
      · refine safe_bind (safe_addressAt (by omega) _ _) fun addr _ => ?_
        split
        · exact ih _ _ _
        · exact ih _ _ _

private theorem safe_parseDnsResponse (buf : List UInt8) (expectedId : UInt16) (recordType : RecordType) :
    Safe (parseDnsResponse buf expectedId recordType) := by
  refine safe_bind (safe_checkHeader buf expectedId) fun _ hheader => ?_
  have hlen := length_of_checkHeader hheader
  refine safe_bind (safe_u16At (by omega)) fun qdcount _ => ?_
  refine safe_bind (safe_u16At (by omega)) fun ancount _ => ?_
  refine safe_bind (safe_skipQuestions _ _ _) fun pos _ => ?_
  exact safe_readAnswers _ _ _ _ _ _

/-- A question of RFC 1035. -/
structure Question where
  name : Wire.Name
  qtype : UInt16
  qclass : UInt16

def Question.wire (q : Question) : List UInt8 := q.name.wire ++ (toBeBytes q.qtype ++ toBeBytes q.qclass)

/-- A resource record of RFC 1035. -/
structure Answer where
  name : Wire.Name
  rtype : UInt16
  rclass : UInt16
  ttl : UInt32
  rdata : List UInt8
  rdata_lt : rdata.length < 65536

namespace Answer

variable (a : Answer)

def rdlength : UInt16 := UInt16.ofNat a.rdata.length

/-- The fields between the name and the data. -/
def fields : List UInt8 := toBeBytes a.rtype ++ (toBeBytes a.rclass ++ (u32ToBeBytes a.ttl ++ toBeBytes a.rdlength))

def wire : List UInt8 := a.name.wire ++ (a.fields ++ a.rdata)

/-- The address the record holds, if it is of the type and of the type's length. -/
def address? : RecordType → Option IpAddr
  | .a => if h : a.rtype = 1 ∧ a.rdata.length = 4 then some (.v4 ⟨a.rdata, h.2⟩) else none
  | .aaaa => if h : a.rtype = 28 ∧ a.rdata.length = 16 then some (.v6 ⟨a.rdata, h.2⟩) else none

private theorem toNat_rdlength : a.rdlength.toNat = a.rdata.length := UInt16.toNat_ofNat_of_lt' a.rdata_lt

private theorem length_fields : a.fields.length = 10 := rfl

end Answer

/-- A response without an error that is not truncated.  `rest` is what stands behind the answers. -/
structure Response where
  id : UInt16
  flags : UInt16
  qr : flags &&& 0x8000 ≠ 0
  tc : flags &&& 0x0200 = 0
  rcode : flags &&& 0x000f = 0
  questions : List Question
  questions_lt : questions.length < 65536
  answers : List Answer
  answers_lt : answers.length < 65536
  nscount : UInt16
  arcount : UInt16
  rest : List UInt8

namespace Response

variable (m : Response)

def header : List UInt8 :=
  toBeBytes m.id ++ (toBeBytes m.flags ++ (toBeBytes (UInt16.ofNat m.questions.length) ++
    (toBeBytes (UInt16.ofNat m.answers.length) ++ (toBeBytes m.nscount ++ toBeBytes m.arcount))))

def wire : List UInt8 :=
  m.header ++ (m.questions.flatMap Question.wire ++ (m.answers.flatMap Answer.wire ++ m.rest))

/-- The addresses of the answers of the type, in their order. -/
def addresses (recordType : RecordType) : List IpAddr := m.answers.filterMap (·.address? recordType)

/-- The times to live of the answers that hold such an address. -/
def ttls (recordType : RecordType) : List UInt32 :=
  (m.answers.filter fun a => (a.address? recordType).isSome).map Answer.ttl

end Response

section Positions

variable {buf : List UInt8} {pos : Nat}

private theorem u16At_wire (front back : List UInt8) {n : UInt16} (hbuf : buf = front ++ (toBeBytes n ++ back))
    (hpos : pos = front.length) : u16At buf pos = pure n := by
  subst hbuf hpos
  have h0 := Checked.index_append (ε := Chain) front (toBeBytes n ++ back) (i := 0) (by simp [toBeBytes])
  have h1 := Checked.index_append (ε := Chain) front (toBeBytes n ++ back) (i := 1) (by simp [toBeBytes])
  rw [Nat.add_zero] at h0
  rw [u16At, h0, Checked.pure_bind, h1, Checked.pure_bind]
  exact congrArg pure (fromBeBytes_toBeBytes n)

private theorem u32At_wire (front back : List UInt8) {n : UInt32} (hbuf : buf = front ++ (u32ToBeBytes n ++ back))
    (hpos : pos = front.length) : u32At buf pos = pure n := by
  subst hbuf hpos
  have hindex (i : Nat) (hi : i < 4) :=
    Checked.index_append (ε := Chain) front (u32ToBeBytes n ++ back) (i := i) (by simp [u32ToBeBytes]; omega)
  have h0 := hindex 0 (by decide)
  rw [Nat.add_zero] at h0
  rw [u32At, h0, Checked.pure_bind, hindex 1 (by decide), Checked.pure_bind, hindex 2 (by decide), Checked.pure_bind,
    hindex 3 (by decide), Checked.pure_bind]
  exact congrArg pure (u32FromBeBytes_u32ToBeBytes n)

/-- One round of `skip_name`, at the octet `len`. -/
private theorem skipName_step (front rest : List UInt8) (len : UInt8) :
    skipName (front ++ len :: rest) front.length =
      if len = 0 then pure (front.length + 1)
      else if len &&& 0xC0 = 0xC0 then
        if rest = [] then throw ["DNS 报文越界: 压缩指针越界"] else pure (front.length + 2)
      else skipName (front ++ len :: rest) (front.length + (1 + len.toNat)) := by
  have hindex := Checked.index_append (ε := Chain) front (len :: rest) (i := 0) (by simp)
  have hrest : (front ++ len :: rest).length ≤ front.length + 1 ↔ rest = [] := by
    rw [List.length_append, List.length_cons, ← List.length_eq_zero_iff]
    omega
  rw [Nat.add_zero] at hindex
  conv => lhs; rw [skipName, if_neg (by simp), hindex, Checked.pure_bind, List.getElem_cons_zero]
  simp only [hrest]

/-- `skip_name` goes behind the name, whatever stands behind it. -/
theorem skipName_wire (name : Wire.Name) (front back : List UInt8) :
    skipName (front ++ (name.wire ++ back)) front.length = pure (front.length + name.wire.length) := by
  obtain ⟨labels, last⟩ := name
  induction labels generalizing front with
  | nil =>
    cases last with
    | root =>
      refine (skipName_step front back 0).trans ?_
      rw [if_pos rfl]
      rfl
    | pointer hi lo tag =>
      refine (skipName_step front (lo :: back) hi).trans ?_
      have hne : hi ≠ 0 := by
        rintro rfl
        exact absurd tag (by decide)
      rw [if_neg hne, if_pos tag, if_neg (List.cons_ne_nil lo back)]
      rfl
  | cons l ls ih =>
    have hwire : (Wire.Name.mk (l :: ls) last).wire = l.size :: (l.bytes ++ (Wire.Name.mk ls last).wire) := by
      simp [Wire.Name.wire]
    rw [hwire, List.cons_append, List.append_assoc, skipName_step, if_neg l.size_ne_zero, if_neg l.size_and_ne,
      l.toNat_size]
    -- the rest of the name stands behind a longer front
    have := ih (front ++ l.size :: l.bytes)
    simp only [List.append_assoc, List.cons_append, List.length_append, List.length_cons] at this ⊢
    rw [show front.length + (1 + l.bytes.length) = front.length + (l.bytes.length + 1) by omega, this]
    congr 1
    omega

theorem skipQuestions_wire (questions : List Question) (front back : List UInt8) :
    skipQuestions (front ++ (questions.flatMap Question.wire ++ back)) questions.length front.length =
      pure (front.length + (questions.flatMap Question.wire).length) := by
  induction questions generalizing front with
  | nil => rfl
  | cons q qs ih =>
    have hskip :=
      skipName_wire q.name front (toBeBytes q.qtype ++ toBeBytes q.qclass ++ (qs.flatMap Question.wire ++ back))
    have hnext := ih (front ++ q.wire)
    simp only [List.flatMap_cons, Question.wire, List.append_assoc, List.length_append,
      List.length_cons] at hskip hnext ⊢
    rw [skipQuestions, hskip, Checked.pure_bind, if_neg (by simp [toBeBytes]; omega)]
    have htype : (toBeBytes q.qtype).length = 2 := rfl
    have hclass : (toBeBytes q.qclass).length = 2 := rfl
    rw [htype, hclass] at hnext ⊢
    rw [show front.length + q.name.wire.length + 4 = front.length + (q.name.wire.length + (2 + 2)) by omega, hnext]
    congr 1
    omega

/-- The four bytes of an IPv4 address, read one by one. -/
private theorem addressAt_a (octets : Octets 4) (front back : List UInt8) :
    addressAt (front ++ (octets.val ++ back)) .a front.length 1 4 = pure (some (.v4 octets)) := by
  match octets with
  | ⟨[a, b, c, d], _⟩ =>
    have hindex (i : Nat) (hi : i < 4) :=
      Checked.index_append (ε := Chain) front ([a, b, c, d] ++ back) (i := i) (by simp; omega)
    have h0 := hindex 0 (by decide)
    rw [Nat.add_zero] at h0
    rw [addressAt, h0, Checked.pure_bind, hindex 1 (by decide), Checked.pure_bind, hindex 2 (by decide),
      Checked.pure_bind, hindex 3 (by decide), Checked.pure_bind]
    rfl

private theorem addressAt_aaaa (octets : Octets 16) (front back : List UInt8) :
    addressAt (front ++ (octets.val ++ back)) .aaaa front.length 28 16 = pure (some (.v6 octets)) := by
  rw [addressAt, Checked.slice_append front back octets.property, Checked.pure_bind]

private theorem addressAt_wire (a : Answer) (recordType : RecordType) (front back : List UInt8) :
    addressAt (front ++ (a.rdata ++ back)) recordType front.length a.rtype a.rdata.length =
      pure (a.address? recordType) := by
  cases recordType with
  | a =>
    by_cases h : a.rtype = 1 ∧ a.rdata.length = 4
    · rw [Answer.address?, dif_pos h, h.1, h.2]
      exact addressAt_a ⟨a.rdata, h.2⟩ front back
    · rw [Answer.address?, dif_neg h]
      unfold addressAt
      split
      · rename_i htype hlen
        exact absurd ⟨htype, hlen⟩ h
      · contradiction
      · rfl
  | aaaa =>
    by_cases h : a.rtype = 28 ∧ a.rdata.length = 16
    · rw [Answer.address?, dif_pos h, h.1, h.2]
      exact addressAt_aaaa ⟨a.rdata, h.2⟩ front back
    · rw [Answer.address?, dif_neg h]
      unfold addressAt
      split
      · contradiction
      · rename_i htype hlen
        exact absurd ⟨htype, hlen⟩ h
      · rfl

/-- One answer adds its address and its time to live, or nothing. -/
private theorem readAnswers_step (a : Answer) (recordType : RecordType) (n : Nat) (addrs : List IpAddr)
    (minTtl : UInt32) (front back : List UInt8) (hbuf : buf = front ++ (a.wire ++ back)) :
    readAnswers buf recordType (n + 1) front.length addrs minTtl =
      readAnswers buf recordType n (front.length + a.wire.length) (addrs ++ (a.address? recordType).toList)
        (if (a.address? recordType).isSome then min minTtl a.ttl else minTtl) := by
  have hparts : buf = front ++ (a.name.wire ++ (a.fields ++ (a.rdata ++ back))) := by rw [hbuf]; simp [Answer.wire]
  have hwire : a.wire.length = a.name.wire.length + (10 + a.rdata.length) := by
    simp only [Answer.wire, List.length_append, a.length_fields]
  have hlen : buf.length = front.length + a.wire.length + back.length := by
    rw [hbuf, List.length_append, List.length_append, Nat.add_assoc]
  have hskip : skipName buf front.length = pure (front.length + a.name.wire.length) := by
    rw [hparts]
    exact skipName_wire a.name front _
  have htype : u16At buf (front.length + a.name.wire.length) = pure a.rtype :=
    u16At_wire (front ++ a.name.wire)
      (toBeBytes a.rclass ++ (u32ToBeBytes a.ttl ++ toBeBytes a.rdlength) ++ (a.rdata ++ back))
      (by simp [hparts, Answer.fields]) (by simp)
  have httl : u32At buf (front.length + a.name.wire.length + 4) = pure a.ttl :=
    u32At_wire (front ++ a.name.wire ++ (toBeBytes a.rtype ++ toBeBytes a.rclass))
      (toBeBytes a.rdlength ++ (a.rdata ++ back)) (by simp [hparts, Answer.fields])
      (by simp [toBeBytes, Nat.add_assoc])
  have hrdlength : u16At buf (front.length + a.name.wire.length + 8) = pure a.rdlength :=
    u16At_wire (front ++ a.name.wire ++ (toBeBytes a.rtype ++ toBeBytes a.rclass ++ u32ToBeBytes a.ttl))
      (a.rdata ++ back) (by simp [hparts, Answer.fields]) (by simp [toBeBytes, u32ToBeBytes, Nat.add_assoc])
  have haddr : addressAt buf recordType (front.length + a.name.wire.length + 10) a.rtype a.rdata.length =
      pure (a.address? recordType) := by
    have := addressAt_wire a recordType (front ++ a.name.wire ++ a.fields) back
    rwa [List.append_assoc, List.append_assoc, ← hparts, List.length_append, List.length_append,
      a.length_fields] at this
  rw [readAnswers, hskip, Checked.pure_bind, if_neg (by omega), htype, Checked.pure_bind, httl, Checked.pure_bind,
    hrdlength, Checked.pure_bind]
  dsimp only
  rw [a.toNat_rdlength, if_neg (by omega), haddr, Checked.pure_bind,
    show front.length + a.name.wire.length + 10 + a.rdata.length = front.length + a.wire.length by omega]
  cases a.address? recordType with
  | none => simp
  | some addr => simp

/-- The loop over the answers collects their addresses. -/
theorem readAnswers_wire (answers : List Answer) (recordType : RecordType) (addrs : List IpAddr) (minTtl : UInt32)
    (front back : List UInt8) :
    readAnswers (front ++ (answers.flatMap Answer.wire ++ back)) recordType answers.length front.length addrs minTtl =
      pure (addrs ++ answers.filterMap (·.address? recordType),
        ((answers.filter fun a => (a.address? recordType).isSome).map Answer.ttl).foldl min minTtl) := by
  induction answers generalizing front addrs minTtl with
  | nil => simp [readAnswers]
  | cons a as ih =>
    rw [List.flatMap_cons, List.append_assoc, List.length_cons, readAnswers_step a recordType _ _ _ _ _ rfl]
    have hnext := ih (addrs ++ (a.address? recordType).toList)
      (if (a.address? recordType).isSome then min minTtl a.ttl else minTtl) (front ++ a.wire)
    rw [List.append_assoc, List.length_append] at hnext
    rw [hnext]
    cases h : a.address? recordType with
    | none => simp [h]
    | some addr => simp [h]

end Positions

section Header

variable (m : Response)

private theorem Response.length_header : m.header.length = 12 := rfl

/-- The number of the header that stands behind `front`. -/
private theorem u16At_header (front back : List UInt8) {n : UInt16} {pos : Nat}
    (h : m.header = front ++ (toBeBytes n ++ back)) (hpos : pos = front.length) : u16At m.wire pos = pure n :=
  u16At_wire front _ (by rw [Response.wire, h, List.append_assoc, List.append_assoc]) hpos

private theorem checkHeader_wire : checkHeader m.wire m.id = pure () := by
  have hlen : 12 ≤ m.wire.length := by
    rw [Response.wire, List.length_append, m.length_header]
    omega
  have hid : u16At m.wire 0 = pure m.id := u16At_header m [] _ rfl rfl
  have hflags : u16At m.wire 2 = pure m.flags := u16At_header m (toBeBytes m.id) _ rfl rfl
  rw [checkHeader, if_neg (by omega), hid, Checked.pure_bind, if_neg (not_not_intro rfl), hflags, Checked.pure_bind,
    if_neg m.qr, if_neg (not_not_intro m.tc), m.rcode]
  rfl

private theorem qdcount_wire : u16At m.wire 4 = pure (UInt16.ofNat m.questions.length) :=
  u16At_header m (toBeBytes m.id ++ toBeBytes m.flags) _ rfl rfl

private theorem ancount_wire : u16At m.wire 6 = pure (UInt16.ofNat m.answers.length) :=
  u16At_header m (toBeBytes m.id ++ toBeBytes m.flags ++ toBeBytes (UInt16.ofNat m.questions.length)) _ rfl rfl

end Header

private theorem foldl_min_top (ttls : List UInt32) : ttls.foldl min 0xffffffff = ttls.min?.getD 0xffffffff := by
  cases ttls with
  | nil => rfl
  | cons t ts =>
    have hle : t ≤ 0xffffffff := UInt32.le_iff_toNat_le.2 (Nat.le_of_lt_succ t.toNat_lt)
    have htop : min 0xffffffff t = t := by
      by_cases hge : 0xffffffff ≤ t
      · exact (if_pos hge).trans (UInt32.le_antisymm hge hle)
      · exact if_neg hge
    rw [List.foldl_cons, htop]
    rfl

/-- What `parse_dns_response` takes from a response. -/
theorem parseDnsResponse_wire (m : Response) (recordType : RecordType) :
    parseDnsResponse m.wire m.id recordType =
      pure (m.addresses recordType, (m.ttls recordType).min?.getD 0xffffffff) := by
  have hquestions : (UInt16.ofNat m.questions.length).toNat = m.questions.length :=
    UInt16.toNat_ofNat_of_lt' m.questions_lt
  have hanswers : (UInt16.ofNat m.answers.length).toNat = m.answers.length := UInt16.toNat_ofNat_of_lt' m.answers_lt
  have hskip := skipQuestions_wire m.questions m.header (m.answers.flatMap Answer.wire ++ m.rest)
  have hread := readAnswers_wire m.answers recordType [] 0xffffffff
    (m.header ++ m.questions.flatMap Question.wire) m.rest
  rw [m.length_header] at hskip
  rw [List.append_assoc, List.length_append, m.length_header] at hread
  rw [parseDnsResponse, checkHeader_wire, Checked.pure_bind, qdcount_wire, Checked.pure_bind, ancount_wire,
    Checked.pure_bind, hquestions, hanswers, Response.wire, hskip, Checked.pure_bind, hread, foldl_min_top]
  rfl

/-- `parse_dns_response` reads no byte behind the buffer, and from a response it takes the addresses of the
answers of the type, in their order, with the least of their times to live. -/
theorem parseDnsResponse_exact :
    (∀ (buf : List UInt8) (id : UInt16) (recordType : RecordType), Safe (parseDnsResponse buf id recordType)) ∧
      ∀ (m : Response) (recordType : RecordType),
        parseDnsResponse m.wire m.id recordType =
          pure (m.addresses recordType, (m.ttls recordType).min?.getD 0xffffffff) :=
  ⟨safe_parseDnsResponse, parseDnsResponse_wire⟩

end WarpSocks.Dns
