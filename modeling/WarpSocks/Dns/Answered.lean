import WarpSocks.Dns.Resolve

/-!
# Which datagram decides a query

`resolve_inner` waits for the answer to its query (`Query.Answers`).  Each datagram either leaves it waiting or
ends it (`step_ignores`, `step_overlong`, `step_of_server`): the checks of the id and of the response bit are made
by the parser, whose error ends the query, and a datagram that does not fit the buffer ends it wherever it comes
from.
-/

namespace WarpSocks.Dns

open Machine (Checked Round)

namespace Query

variable (q : Query)

/-- The datagram comes from the server and carries the id of the query in the header of a response. -/
def Answers (d : Datagram) : Prop :=
  d.source = q.server ∧ 12 ≤ d.bytes.length ∧ fromBeBytes (d.bytes.getD 0 0) (d.bytes.getD 1 0) = q.id ∧
    fromBeBytes (d.bytes.getD 2 0) (d.bytes.getD 3 0) &&& 0x8000 ≠ 0

/-- What `resolve_inner` makes of the parse of a datagram. -/
def parsed (d : Datagram) : Checked Chain (List IpAddr) :=
  match parseDnsResponse d.bytes q.id q.recordType with
  | some (.ok (addrs, _)) => pure addrs
  | some (.error e) => throw ("解析隧道内 DNS 响应失败" :: e)
  | none => Checked.panic

/-- The event is the arrival of an answer. -/
def IsAnswer : Event → Prop
  | .received d _ _ => q.Answers d
  | _ => False

end Query

/-- The event is not a failure of the socket. -/
def Event.Sound : Event → Prop
  | .received _ _ _ => True
  | .failed _ => False
  | .elapsed sent => sent = .ok ()

section Rounds

variable {q : Query} {d : Datagram} {clearedAt writtenAt : Nat}

private theorem result_conclude (cache : DnsCache) :
    (q.conclude cache d.bytes clearedAt writtenAt).result = q.parsed d := by
  unfold Query.conclude Query.parsed
  rcases parseDnsResponse d.bytes q.id q.recordType with _ | e | ⟨addrs, ttl⟩ <;> rfl

/-- A datagram from elsewhere that fits the buffer changes nothing. -/
theorem step_ignores (hfits : d.bytes.length ≤ 512) (hsource : d.source ≠ q.server) (s : Waiting) :
    q.step s (.received d clearedAt writtenAt) = .next s := by
  simp only [Query.step, recvFrom, if_neg (Nat.not_lt.2 hfits), if_neg hsource]

/-- A datagram that does not fit the buffer ends the query. -/
theorem step_overlong (hlong : 512 < d.bytes.length) (s : Waiting) :
    q.step s (.received d clearedAt writtenAt) = .stop ⟨throw ["隧道内 UDP 接收失败", "truncated"], s.cache⟩ := by
  simp only [Query.step, recvFrom, if_pos hlong]

/-- A datagram of the server ends the query with its parse. -/
theorem step_of_server (hfits : d.bytes.length ≤ 512) (hsource : d.source = q.server) (s : Waiting) :
    q.step s (.received d clearedAt writtenAt) = .stop (q.conclude s.cache d.bytes clearedAt writtenAt) := by
  simp only [Query.step, recvFrom, if_neg (Nat.not_lt.2 hfits), if_pos hsource]

private theorem parsed_ne_recv_error : q.parsed d ≠ throw ["隧道内 UDP 接收失败", "truncated"] := by
  unfold Query.parsed
  rcases parseDnsResponse d.bytes q.id q.recordType with _ | e | ⟨addrs, ttl⟩
  · exact (Option.some_ne_none _).symm
  · intro h
    have hhead := (List.cons.inj (Except.error.inj (Option.some.inj h))).1
    exact absurd hhead (by decide)
  · intro h
    cases Option.some.inj h

end Rounds

/-- Up to the answer, every datagram fits the buffer and none but the answer comes from the server. -/
def Undisturbed (q : Query) (events : List Event) : Prop :=
  ∀ front d clearedAt writtenAt back, events = front ++ .received d clearedAt writtenAt :: back →
    (∀ e ∈ front, ¬q.IsAnswer e) → d.bytes.length ≤ 512 ∧ (d.source = q.server → q.Answers d)

/-- What arrives before the answer leaves the query waiting, and the result is the parse of the answer. -/
def DecidedByAnswer (q : Query) (outcome : List Event → Option Resolved) (events : List Event) : Prop :=
  (∀ front back, events = front ++ back → (∀ e ∈ front, ¬q.IsAnswer e) → outcome front = none) ∧
    ∀ front d clearedAt writtenAt back, events = front ++ .received d clearedAt writtenAt :: back →
      (∀ e ∈ front, ¬q.IsAnswer e) → q.Answers d → (outcome events).map Resolved.result = some (q.parsed d)

/-- Without a disturbance what is not the answer leaves the query waiting. -/
private theorem run_front_eq_none {q : Query} {events front back : List Event} (hsound : ∀ e ∈ events, e.Sound)
    (hclear : Undisturbed q events) (hevents : events = front ++ back) (hfront : ∀ e ∈ front, ¬q.IsAnswer e)
    (s : Waiting) : (Machine.run q.step s front).2 = none := by
  refine Machine.run_snd_eq_none q.step (fun e he s => ?_) s
  have hok := hsound e (by rw [hevents]; exact List.mem_append_left back he)
  match e, hok, he with
  | .received d clearedAt writtenAt, _, he =>
    obtain ⟨f₁, f₂, rfl⟩ := List.append_of_mem he
    obtain ⟨hfits, hanswer⟩ := hclear f₁ d clearedAt writtenAt (f₂ ++ back) (by rw [hevents]; simp)
      fun e' he' => hfront e' (List.mem_append_left _ he')
    have hsource : d.source ≠ q.server := fun h => hfront _ he (hanswer h)
    exact ⟨s, step_ignores hfits hsource s⟩
  | .elapsed _, rfl, _ => exact ⟨_, rfl⟩

section Decided

variable {q : Query} {events : List Event} {outcome : List Event → Option Resolved} {s : Waiting}
  (hrun : ∀ es, outcome es = (Machine.run q.step s es).2)
include hrun

/-- A datagram that ends the query is the answer. -/
private theorem DecidedByAnswer.answers (h : DecidedByAnswer q outcome events) {front back : List Event}
    {d : Datagram} {clearedAt writtenAt : Nat} (hevents : events = front ++ .received d clearedAt writtenAt :: back)
    (hfront : ∀ e ∈ front, ¬q.IsAnswer e)
    (hstop : ∀ s', ∃ r, q.step s' (.received d clearedAt writtenAt) = .stop r) : q.Answers d := by
  by_contra hno
  have hnone := (hrun front).symm.trans (h.1 front _ hevents hfront)
  have hmore : ∀ e ∈ front ++ [.received d clearedAt writtenAt], ¬q.IsAnswer e := by
    intro e he
    rcases List.mem_append.1 he with he | he
    · exact hfront e he
    · rw [List.mem_singleton.1 he]
      exact hno
  have hwaits := h.1 (front ++ [.received d clearedAt writtenAt]) back (by rw [hevents]; simp) hmore
  obtain ⟨r, hr, -⟩ := Machine.run_snd_append_stop (P := fun _ => True) q.step hnone
    (fun s' => (hstop s').imp fun _ hr => ⟨hr, trivial⟩) []
  rw [hrun, hr] at hwaits
  exact Option.some_ne_none r hwaits

/-- A datagram that does not fit the buffer ends the query with an error that is no parse. -/
private theorem DecidedByAnswer.undisturbed (h : DecidedByAnswer q outcome events) : Undisturbed q events := by
  intro front d clearedAt writtenAt back hevents hfront
  have hfits : d.bytes.length ≤ 512 := by
    by_contra hlong
    have hlong : 512 < d.bytes.length := by omega
    have hanswer := h.answers hrun hevents hfront fun s' => ⟨_, step_overlong hlong s'⟩
    have hnone := (hrun front).symm.trans (h.1 front _ hevents hfront)
    obtain ⟨r, hr, herr⟩ := Machine.run_snd_append_stop (e := .received d clearedAt writtenAt)
      (P := fun r : Resolved => r.result = throw ["隧道内 UDP 接收失败", "truncated"]) q.step hnone
      (fun s' => ⟨_, step_overlong hlong s', rfl⟩) back
    have hparsed := h.2 front d clearedAt writtenAt back hevents hfront hanswer
    rw [hrun, hevents, hr, Option.map_some, herr] at hparsed
    exact parsed_ne_recv_error (Option.some.inj hparsed).symm
  exact ⟨hfits, fun hsource => h.answers hrun hevents hfront fun s' => ⟨_, step_of_server hfits hsource s'⟩⟩

private theorem Undisturbed.decided (hsound : ∀ e ∈ events, e.Sound) (hclear : Undisturbed q events) :
    DecidedByAnswer q outcome events := by
  refine ⟨fun front back hevents hfront => (hrun front).trans (run_front_eq_none hsound hclear hevents hfront s), ?_⟩
  intro front d clearedAt writtenAt back hevents hfront hanswer
  have hnone := run_front_eq_none hsound hclear hevents hfront s
  have hfits := (hclear front d clearedAt writtenAt back hevents hfront).1
  obtain ⟨r, hr, hparsed⟩ := Machine.run_snd_append_stop (e := .received d clearedAt writtenAt)
    (P := fun r : Resolved => r.result = q.parsed d) q.step hnone
    (fun s' => ⟨_, step_of_server hfits hanswer.1 s', result_conclude s'.cache⟩) back
  rw [hrun, hevents, hr, Option.map_some, hparsed]

end Decided

/-- Behind the lookup in the cache and the encoding of the query there is only the loop. -/
private theorem resolveInner_eq_run {debug : String → String} {server : SocketAddr} {name : String}
    {recordType : RecordType} {cache : DnsCache} {id : UInt16} {now : Nat} {bytes : List UInt8}
    (hcache : cache.get (server, name.toLower, recordType) now = none)
    (hquery : encodeDnsQuery debug id name recordType = .ok bytes) (events : List Event) :
    resolveInner debug server name recordType cache ⟨now, id, .ok (), .ok ()⟩ events =
      (Machine.run (Query.step ⟨server, (server, name.toLower, recordType), recordType, id, bytes⟩) ⟨cache, [bytes]⟩
        events).2 := by
  unfold resolveInner
  simp only [hcache, hquery, orContext]

/-- A query that is sent is decided by its answer alone exactly if, up to the answer, no datagram is longer than
the receive buffer and none but the answer comes from the server. -/
theorem resolveInner_decided_iff (debug : String → String) (server : SocketAddr) (name : String)
    (recordType : RecordType)
    (cache : DnsCache) (id : UInt16) (now : Nat) (bytes : List UInt8) (events : List Event)
    (hcache : cache.get (server, name.toLower, recordType) now = none)
    (hquery : encodeDnsQuery debug id name recordType = .ok bytes) (hsound : ∀ e ∈ events, e.Sound) :
    DecidedByAnswer ⟨server, (server, name.toLower, recordType), recordType, id, bytes⟩
        (resolveInner debug server name recordType cache ⟨now, id, .ok (), .ok ()⟩) events ↔
      Undisturbed ⟨server, (server, name.toLower, recordType), recordType, id, bytes⟩ events :=
  ⟨fun h => h.undisturbed (resolveInner_eq_run hcache hquery),
    fun h => h.decided (resolveInner_eq_run hcache hquery) hsound⟩

section Runs

/-- The server `1.1.1.1:53`. -/
private def oneServer : SocketAddr := .v4 ⟨[1, 1, 1, 1], rfl⟩ 53

/-- A response without records. -/
private def noData (idLow : UInt8) : List UInt8 := [0x12, idLow, 0x81, 0x80, 0, 0, 0, 0, 0, 0, 0, 0]

/-- The query for the addresses of `a`. -/
private def oneQuery : Query :=
  ⟨oneServer, (oneServer, "a".toLower, .a), .a, 0x1234, [0x12, 0x34, 1, 0, 0, 1, 0, 0, 0, 0, 0, 0, 1, 97, 0, 0, 1,
    0, 1]⟩

private def oneOutcome : List Event → Option Resolved :=
  resolveInner id oneServer "a" .a ⟨∅⟩ ⟨0, 0x1234, .ok (), .ok ()⟩

private theorem oneCache_get : DnsCache.get ⟨∅⟩ (oneServer, "a".toLower, .a) 0 = none := rfl

private theorem oneQuery_bytes : encodeDnsQuery id 0x1234 "a" .a = .ok oneQuery.bytes := by decide

private theorem oneQuery_answered : oneQuery.Answers ⟨oneServer, noData 0x34⟩ :=
  ⟨rfl, by decide, by decide, by decide⟩

/-- A response from elsewhere, with another id, is passed over. -/
theorem resolveInner_decided_iff_answer :
    DecidedByAnswer oneQuery oneOutcome
      [.elapsed (.ok ()), .received ⟨.v4 ⟨[2, 2, 2, 2], rfl⟩ 53, noData 0x35⟩ 0 0,
        .received ⟨oneServer, noData 0x34⟩ 0 0] := by
  refine (resolveInner_decided_iff id oneServer "a" .a ⟨∅⟩ 0x1234 0 _ _ oneCache_get oneQuery_bytes ?_).2 ?_
  · simp only [List.forall_mem_cons]
    exact ⟨rfl, trivial, trivial, fun _ h => nomatch h⟩
  · intro front d clearedAt writtenAt back hevents _
    rcases front with _ | ⟨e, _ | ⟨e', _ | ⟨e'', front⟩⟩⟩
    · cases hevents
    · cases hevents
      exact ⟨by decide, fun h => nomatch h⟩
    · cases hevents
      exact ⟨by decide, fun _ => oneQuery_answered⟩
    · have := congrArg List.length hevents
      simp at this

/-- A stray response of the server with another id, and an overlong datagram from elsewhere, each end the query. -/
theorem stray_datagram_ends_query :
    (oneOutcome [.received ⟨oneServer, noData 0x35⟩ 0 0,
      .received ⟨oneServer, noData 0x34⟩ 0 0]).map Resolved.result =
        some (throw ["解析隧道内 DNS 响应失败", "DNS 响应 ID 不匹配: 期望 4660, 实际 4661"]) ∧
      (oneOutcome [.received ⟨.v4 ⟨[2, 2, 2, 2], rfl⟩ 53, List.replicate 513 0⟩ 0 0]).map Resolved.result =
        some (throw ["隧道内 UDP 接收失败", "truncated"]) ∧
      oneQuery.Answers ⟨oneServer, noData 0x34⟩ ∧ oneQuery.parsed ⟨oneServer, noData 0x34⟩ = pure [] := by
  refine ⟨rfl, ?_, oneQuery_answered, rfl⟩
  have hstep (s : Waiting) :
      oneQuery.step s (.received ⟨.v4 ⟨[2, 2, 2, 2], rfl⟩ 53, List.replicate 513 0⟩ 0 0) =
        .stop ⟨throw ["隧道内 UDP 接收失败", "truncated"], s.cache⟩ :=
    step_overlong (by rw [List.length_replicate]; decide) s
  have hrun (es : List Event) : oneOutcome es = (Machine.run oneQuery.step ⟨⟨∅⟩, [oneQuery.bytes]⟩ es).2 :=
    resolveInner_eq_run oneCache_get oneQuery_bytes es
  rw [hrun, Machine.run_cons_stop oneQuery.step (hstep _), Option.map_some]

end Runs

end WarpSocks.Dns
