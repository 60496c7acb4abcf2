import WarpSocks.Dns.Message
import WarpSocks.Host
import WarpSocks.Machine.Trace
import WarpSocks.Masque.DohCache
import WarpSocks.Masque.DohResponse
import WarpSocks.Masque.Exchange
import WarpSocks.SocketText

/-!
# Connecting through MASQUE

`Masque::connect_tcp` with `resolve_domain`, `doh_query`, `connect_stream` and `DnsCache::resolve_over`, between
their await points, for any number of calls at once: they share the cache.  What the network, the clock and the
edge answer is an input, and a call may run out of its budget, or be dropped by its caller, wherever it waits.

No stream is lost (`exec_tracked`): at every instant the streams that are open are those that a call still works
on and those that a call has returned.
-/

namespace WarpSocks.Masque.Dial

open Dns (RecordType encodeDnsQuery parseDnsResponse)
open Machine (Checked)
open Wire (Reader Writer)

def DOH_ADDRS : List String := ["162.159.36.1:443", "162.159.46.1:443"]

def DOH_SNI : String := "cloudflare-dns.com"

def DOH_PATH : String := "/dns-query"

/-- `build_http_request`. -/
def buildHttpRequest (body : List UInt8) : List UInt8 :=
  Text.asBytes
    (s!"POST {DOH_PATH} HTTP/1.1\r\nhost: {DOH_SNI}\r\ncontent-type: application/dns-message\r\n" ++
      s!"accept: application/dns-message\r\ncontent-length: {body.length}\r\nconnection: close\r\n\r\n") ++ body

/-- `timeout(..).await.context(..)?`: nothing in time is an error. -/
def inTime {α : Type} (context : String) : Option (Except Chain α) → Except Chain α
  | none => .error [context, "deadline has elapsed"]
  | some result => result

/-- What the calls have in common: the bits of a word, the token of the registration, and the two library
functions that are parameters, `Debug` of a text and the parser of header blocks. -/
structure Session where
  w : Nat
  token : String
  debug : String → String
  httparse : Doh.Httparse

/-- What a call of `resolve_over` meets, each part unless it takes too long. -/
structure AskInput where
  tls : Option (Except IoError Unit)
  send : Option (Writer IoError)
  flush : Option (Except IoError Unit)
  response : Option (Reader IoError)

/-- `resolve_over` up to the call of `store`: the address, and for how many seconds it is good. -/
def resolveOver (session : Session) (domain : String) (recordType : RecordType) (input : AskInput) :
    Checked Chain (IpAddr × UInt32) := do
  Checked.ofExcept (inTime "DoH TLS 握手超时" (input.tls.map (orContext ["DoH TLS 握手失败"])))
  let query ← Checked.ofExcept (encodeDnsQuery session.debug 0 domain recordType)
  let request := buildHttpRequest query
  Checked.ofExcept (inTime "DoH 请求发送超时" (input.send.map fun tls => orContext [] (tls.writeAll request).1))
  Checked.ofExcept (inTime "DoH 请求 flush 超时" (input.flush.map (orContext [])))
  let body ← Checked.ofExcept
    (inTime "DoH 响应读取超时" (input.response.map fun tls => (Doh.readHttpResponse session.httparse tls).1))
  let (addrs, ttl) ← parseDnsResponse body 0 recordType
  match addrs.head? with
  | none => throw ["DoH 响应未包含请求的地址记录"]
  | some ip => return (ip, ttl)

/-- What a stream is opened for. -/
inductive Aim where
  | doh (recordType : RecordType) (addr : String)
  | target (ip : IpAddr)
  deriving DecidableEq

/-- The `:authority` of the stream's request. -/
def Aim.authority (port : UInt16) : Aim → String
  | doh _ addr => addr
  | target ip => SocketText.display (.new ip port)

/-- The queries of `resolve_domain`, in their order. -/
def queries : List Aim := [RecordType.a, .aaaa].flatMap fun recordType => DOH_ADDRS.map (.doh recordType)

/-- A query, with those that follow if it fails. -/
structure Question where
  domain : String
  recordType : RecordType
  addr : String
  rest : List Aim

/-- What a call of `connect_stream` is for. -/
inductive Goal where
  | doh (question : Question)
  | target (ip : IpAddr)

def Goal.aim : Goal → Aim
  | doh q => .doh q.recordType q.addr
  | target ip => .target ip

/-- Where a call waits, with the stream it holds. -/
inductive Phase where
  /-- For the lock on the cache, in `cached`. -/
  | looking (domain : String)
  /-- In `open`. -/
  | opening (goal : Goal)
  /-- In `exchange`. -/
  | exchanging (goal : Goal) (stream : Nat)
  /-- In `resolve_over`, before the lock. -/
  | asking (question : Question) (stream : Nat)
  /-- For the lock on the cache, in `store`. -/
  | storing (domain : String) (ip : IpAddr) (ttl : UInt32) (stream : Nat)
  /-- Returned, with the stream and the note of `Connected`. -/
  | returned (result : Except IoError (Nat × Option String))
  /-- Dropped by the caller. -/
  | abandoned
  | panicked

/-- `format!("{e:#}")`. -/
def showChain (e : Chain) : String := ": ".intercalate e

/-- `io_err`. -/
def ioErr (msg : String) : IoError := ⟨.other, msg⟩

/-- The loops of `resolve_domain` and `doh_query`, with the last error. -/
def askNext (domain : String) : List Aim → Option Chain → Phase
  | .doh recordType addr :: rest, _ => .opening (.doh ⟨domain, recordType, addr, rest⟩)
  | _, lastErr =>
    let e := lastErr.getD [s!"DoH 未解析出 {domain} 的 A/AAAA 记录"]
    .returned (.error (ioErr s!"DoH 解析 {domain} 失败: {showChain e}"))

/-- What follows when `connect_stream` fails. -/
def Goal.failed (port : UInt16) (e : Chain) : Goal → Phase
  | doh q => askNext q.domain q.rest (some ("建立 DoH 隧道失败" :: e))
  | target ip =>
    .returned (.error (ioErr s!"MASQUE CONNECT {(Aim.target ip).authority port} 失败: {showChain e}"))

/-- What follows when `connect_stream` succeeds. -/
def Goal.connected (stream : Nat) (colo : Option String) : Goal → Phase
  | doh q => .asking q stream
  | target _ => .returned (.ok (stream, colo.map fun c => s!"colo={c}"))

/-- What has become of a stream. -/
inductive Fate where
  | held
  /-- In a `FramedStream`. -/
  | framed
  /-- Stopped and reset. -/
  | released
  /-- Dropped with what it was in. -/
  | dropped
  deriving DecidableEq

def Fate.live : Fate → Bool
  | held | framed => true
  | released | dropped => false

structure Stream where
  call : Nat
  aim : Aim
  fate : Fate

structure Call where
  host : Host
  port : UInt16
  phase : Phase

/-- The calls, the streams that were opened, and the cache with the calls that were made on it. -/
structure State (session : Session) where
  calls : List Call
  streams : List Stream
  cache : Doh.Entries
  history : List Doh.Call

/-- What a call meets where it waits. -/
inductive Action where
  | looked (now : Nat)
  | opened (result : Except Chain Unit)
  /-- The two sides of the stream, unless `EXCHANGE_TIMEOUT` has passed. -/
  | exchanged (sides : Option (Writer IoError × Reader IoError))
  | answered (input : AskInput)
  | stored (visit : Doh.Visit) (now : Nat)
  /-- `CONNECT_TIMEOUT` has passed. -/
  | expired
  | abandoned

inductive Event where
  | call (host : Host) (port : UInt16)
  | act (call : Nat) (action : Action)

/-- The stream that a call holds or has returned. -/
def Phase.stream? : Phase → Option Nat
  | exchanging _ stream | asking _ stream | storing _ _ _ stream | returned (.ok (stream, _)) => some stream
  | looking _ | opening _ | returned (.error _) | abandoned | panicked => none

def Phase.running : Phase → Bool
  | looking _ | opening _ | exchanging _ _ | asking _ _ | storing _ _ _ _ => true
  | returned _ | abandoned | panicked => false

namespace State

variable {session : Session}

def start : State session := ⟨[], [], ∅, []⟩

def move (s : State session) (i : Nat) (phase : Phase) : State session :=
  { s with calls := s.calls.modify i fun c => { c with phase } }

def mark (s : State session) (k : Nat) (fate : Fate) : State session :=
  { s with streams := s.streams.modify k fun st => { st with fate } }

/-- The stream of a future that is dropped goes with it. -/
def drop (s : State session) (phase : Phase) : State session :=
  match phase.stream? with
  | some k => s.mark k .dropped
  | none => s

def act (s : State session) (i : Nat) (c : Call) : Action → Option (State session)
  | .looked now =>
    match c.phase with
    | .looking domain =>
      let (hit, cache) := Doh.cached s.cache domain now
      let s : State session := { s with cache, history := s.history ++ [.cached domain now] }
      match hit with
      | some ip => some (s.move i (.opening (.target ip)))
      | none => some (s.move i (askNext domain queries none))
    | _ => none
  | .opened result =>
    match c.phase with
    | .opening goal =>
      match result with
      | .error e => some (s.move i (goal.failed c.port e))
      | .ok () =>
        let opened : State session := { s with streams := s.streams ++ [⟨i, goal.aim, .held⟩] }
        some (opened.move i (.exchanging goal s.streams.length))
    | _ => none
  | .exchanged sides =>
    match c.phase with
    | .exchanging goal k =>
      match sides with
      | none =>
        some ((s.mark k .released).move i (goal.failed c.port ["MASQUE CONNECT 交换超时", "deadline has elapsed"]))
      | some (send, recv) =>
        match exchange session.w (goal.aim.authority c.port) session.token send recv with
        | none => some ((s.mark k .dropped).move i .panicked)
        | some (.error e, _, _) => some ((s.mark k .released).move i (goal.failed c.port e))
        | some (.ok colo, _, _) => some ((s.mark k .framed).move i (goal.connected k colo))
    | _ => none
  | .answered input =>
    match c.phase with
    | .asking q k =>
      match resolveOver session q.domain q.recordType input with
      | none => some ((s.mark k .dropped).move i .panicked)
      | some (.error e) => some ((s.mark k .dropped).move i (askNext q.domain q.rest (some e)))
      | some (.ok (ip, ttl)) => some (s.move i (.storing q.domain ip ttl k))
    | _ => none
  | .stored visit now =>
    match c.phase with
    | .storing domain ip ttl k =>
      let store : Doh.Call := .store visit domain ip (.fromSecs ttl.toNat) now
      let kept : State session := { s with cache := store.apply s.cache, history := s.history ++ [store] }
      some ((kept.mark k .dropped).move i (.opening (.target ip)))
    | _ => none
  | .expired =>
    if c.phase.running then
      some ((s.drop c.phase).move i (.returned (.error ⟨.timedOut, "MASQUE DNS/CONNECT 总预算耗尽"⟩)))
    else none
  | .abandoned => if c.phase.running then some ((s.drop c.phase).move i .abandoned) else none

/-- The first place at which `connect_tcp` waits. -/
def firstPhase : Host → Phase
  | .domain name => .looking name
  | .ip addr => .opening (.target addr)

def step (s : State session) : Event → Option (State session)
  | .call host port => some { s with calls := s.calls ++ [⟨host, port, firstPhase host⟩] }
  | .act i action => s.calls[i]?.bind fun c => s.act i c action

end State

/-! ### The streams -/

section Streams

variable {session : Session} {s s' : State session} {i : Nat} {c : Call} {action : Action} {es : List Event}
    {e : Event}

private theorem stream?_askNext (domain : String) (rest : List Aim) (lastErr : Option Chain) :
    (askNext domain rest lastErr).stream? = none := by
  unfold askNext
  split <;> rfl

private theorem Goal.stream?_failed (goal : Goal) (port : UInt16) (e : Chain) :
    (goal.failed port e).stream? = none := by
  cases goal with
  | doh q => exact stream?_askNext _ _ _
  | target ip => rfl

private theorem Goal.stream?_connected (goal : Goal) (k : Nat) (colo : Option String) :
    (goal.connected k colo).stream? = some k := by
  cases goal <;> rfl

private theorem stream?_firstPhase (host : Host) : (State.firstPhase host).stream? = none := by
  cases host <;> rfl

/-- The edge has accepted the request. -/
def Accepts (session : Session) (port : UInt16) (action : Action) (aim : Aim) (colo : Option String) : Prop :=
  ∃ send recv send' recv', action = .exchanged (some (send, recv)) ∧
    exchange session.w (aim.authority port) session.token send recv = some (.ok colo, send', recv')

/-- The phases in which it matters which stream it is. -/
def Phase.carries : Phase → Bool
  | exchanging _ _ | returned (.ok _) => true
  | _ => false

/-- What a step of the call `i` from one phase to the next does to the streams. -/
inductive Turns (session : Session) (streams : List Stream) (i : Nat) (port : UInt16) (action : Action)
    (phase phase' : Phase) :
    List Stream → Prop where
  | keeps (h : phase'.stream? = phase.stream?) (h' : phase'.carries = false) :
    Turns session streams i port action phase phase' streams
  | opens (goal : Goal) (h : phase = .opening goal) (h' : phase' = .exchanging goal streams.length) :
    Turns session streams i port action phase phase' (streams ++ [⟨i, goal.aim, .held⟩])
  | frames (goal : Goal) (k : Nat) (colo : Option String) (h : phase = .exchanging goal k)
      (h' : phase' = goal.connected k colo) (haccepts : Accepts session port action goal.aim colo) :
    Turns session streams i port action phase phase' (streams.modify k fun st => { st with fate := .framed })
  | ends (k : Nat) (fate : Fate) (h : phase.stream? = some k) (h' : phase'.stream? = none)
    (hfate : fate.live = false) :
    Turns session streams i port action phase phase' (streams.modify k fun st => { st with fate })

private theorem carries_askNext (domain : String) (rest : List Aim) (lastErr : Option Chain) :
    (askNext domain rest lastErr).carries = false := by
  unfold askNext
  split <;> rfl

private theorem Goal.carries_failed (goal : Goal) (port : UInt16) (e : Chain) :
    (goal.failed port e).carries = false := by
  cases goal with
  | doh q => exact carries_askNext _ _ _
  | target ip => rfl

/-- The future of a call that runs is dropped. -/
private theorem turns_drop (s : State session) (i : Nat) (port : UInt16) (action : Action) (phase phase' : Phase)
    (h' : phase'.stream? = none) (hcarries : phase'.carries = false) :
    (s.drop phase).calls = s.calls ∧ Turns session s.streams i port action phase phase' (s.drop phase).streams := by
  unfold State.drop
  cases hstream : phase.stream? with
  | none => exact ⟨rfl, .keeps (h'.trans hstream.symm) hcarries⟩
  | some k => exact ⟨rfl, .ends k .dropped hstream h' rfl⟩

private theorem act_turns (h : s.act i c action = some s') :
    ∃ phase', s'.calls = s.calls.modify i (fun c => { c with phase := phase' }) ∧
      Turns session s.streams i c.port action c.phase phase' s'.streams := by
  cases action with
  | looked now =>
    simp only [State.act] at h
    split at h
    · rename_i domain hphase
      split at h
      · cases h
        exact ⟨_, rfl, .keeps (by rw [hphase]; rfl) rfl⟩
      · cases h
        exact ⟨_, rfl, .keeps (by rw [hphase]; exact stream?_askNext _ _ _) (carries_askNext _ _ _)⟩
    · cases h
  | opened result =>
    simp only [State.act] at h
    split at h
    · rename_i goal hphase
      split at h
      · cases h
        exact ⟨_, rfl, .keeps (by rw [hphase]; exact goal.stream?_failed _ _) (goal.carries_failed _ _)⟩
      · cases h
        exact ⟨_, rfl, .opens goal hphase rfl⟩
    · cases h
  | exchanged sides =>
    simp only [State.act] at h
    split at h
    · rename_i goal k hphase
      have hheld : c.phase.stream? = some k := by rw [hphase]; rfl
      split at h
      · cases h
        exact ⟨_, rfl, .ends k .released hheld (goal.stream?_failed _ _) rfl⟩
      · rename_i send recv
        split at h
        · cases h
          exact ⟨_, rfl, .ends k .dropped hheld rfl rfl⟩
        · cases h
          exact ⟨_, rfl, .ends k .released hheld (goal.stream?_failed _ _) rfl⟩
        · rename_i colo send' recv' hexchange
          cases h
          exact ⟨_, rfl, .frames goal k colo hphase rfl ⟨send, recv, send', recv', rfl, hexchange⟩⟩
    · cases h
  | answered input =>
    simp only [State.act] at h
    split at h
    · rename_i q k hphase
      have hheld : c.phase.stream? = some k := by rw [hphase]; rfl
      split at h
      · cases h
        exact ⟨_, rfl, .ends k .dropped hheld rfl rfl⟩
      · cases h
        exact ⟨_, rfl, .ends k .dropped hheld (stream?_askNext _ _ _) rfl⟩
      · cases h
        exact ⟨_, rfl, .keeps hheld.symm rfl⟩
    · cases h
  | stored visit now =>
    simp only [State.act] at h
    split at h
    · rename_i domain ip ttl k hphase
      cases h
      exact ⟨_, rfl, .ends k .dropped (by rw [hphase]; rfl) rfl rfl⟩
    · cases h
  | expired =>
    simp only [State.act, Option.ite_none_right_eq_some, Option.some.injEq] at h
    obtain ⟨-, rfl⟩ := h
    obtain ⟨hcalls, hturns⟩ := turns_drop s i c.port .expired c.phase (.returned (.error _)) rfl rfl
    exact ⟨_, by rw [State.move, hcalls], hturns⟩
  | abandoned =>
    simp only [State.act, Option.ite_none_right_eq_some, Option.some.injEq] at h
    obtain ⟨-, rfl⟩ := h
    obtain ⟨hcalls, hturns⟩ := turns_drop s i c.port .abandoned c.phase .abandoned rfl rfl
    exact ⟨_, by rw [State.move, hcalls], hturns⟩

/-- A stream that the call does not hold stays as it is. -/
private theorem Turns.frame {streams streams' : List Stream} {port : UInt16} {phase phase' : Phase}
    (h : Turns session streams i port action phase phase' streams') {k : Nat} {st : Stream}
    (hst : streams[k]? = some st) (hk : phase.stream? ≠ some k) : streams'[k]? = some st := by
  have hmark (k₀ : Nat) (fate : Fate) (hheld : phase.stream? = some k₀) :
      (streams.modify k₀ fun st => { st with fate })[k]? = some st := by
    have hne : k₀ ≠ k := fun heq => hk (heq ▸ hheld)
    rw [List.getElem?_modify_ne _ _ hne, hst]
  cases h with
  | keeps => exact hst
  | opens goal =>
    rw [List.getElem?_append_left (List.getElem?_eq_some_iff.1 hst).1]
    exact hst
  | frames goal k₀ colo hphase => exact hmark k₀ .framed (by rw [hphase]; rfl)
  | ends k₀ fate hheld => exact hmark k₀ fate hheld

/-- The stream `k` is open and was opened by the call `i`. -/
def Open (streams : List Stream) (i k : Nat) : Prop :=
  ∃ st, streams[k]? = some st ∧ st.call = i ∧ st.fate.live = true

/-- The call `i` holds the stream `k` or has returned it. -/
def Holds (calls : List Call) (i k : Nat) : Prop := ∃ c, calls[i]? = some c ∧ c.phase.stream? = some k

private theorem holds_modify {calls : List Call} {i : Nat} {c : Call} (hc : calls[i]? = some c) (phase : Phase)
    (j k : Nat) :
    Holds (calls.modify i fun c => { c with phase }) j k ↔ if j = i then phase.stream? = some k
      else Holds calls j k := by
  unfold Holds
  rw [List.getElem?_modify]
  by_cases hj : j = i
  · subst hj
    simp [hc]
  · simp [hj, Ne.symm hj]

private theorem open_concat (streams : List Stream) (i : Nat) (aim : Aim) (j k : Nat) :
    Open (streams ++ [⟨i, aim, .held⟩]) j k ↔ Open streams j k ∨ j = i ∧ k = streams.length := by
  unfold Open
  rw [List.getElem?_append]
  split
  · rename_i hlt
    simp [Nat.ne_of_lt hlt]
  · rename_i hge
    rw [List.getElem?_eq_none (Nat.not_lt.1 hge), List.getElem?_singleton]
    by_cases hk : k = streams.length
    · simp [hk, Fate.live, eq_comm (a := i)]
    · simp [hk, show ¬k - streams.length = 0 by omega]

private theorem open_modify {streams : List Stream} {k : Nat} {st : Stream} (hst : streams[k]? = some st)
    (fate : Fate) (j k' : Nat) :
    Open (streams.modify k fun st => { st with fate }) j k' ↔
      if k' = k then st.call = j ∧ fate.live = true else Open streams j k' := by
  unfold Open
  rw [List.getElem?_modify]
  by_cases hk : k' = k
  · subst hk
    simp [hst]
  · simp [hk, Ne.symm hk]

/-- The streams that are open are those that the calls hold or have returned, each held by the call that has
opened it. -/
def Owned (s : State session) : Prop := ∀ i k, Open s.streams i k ↔ Holds s.calls i k

private theorem Owned.act (h : Owned s) (hc : s.calls[i]? = some c) (hact : s.act i c action = some s') :
    Owned s' := by
  obtain ⟨phase', hcalls, hturns⟩ := act_turns hact
  have hmine (k : Nat) : Open s.streams i k ↔ c.phase.stream? = some k := by
    rw [h i k]
    constructor
    · rintro ⟨c', hc', hk⟩
      rw [hc] at hc'
      cases hc'
      exact hk
    · exact fun hk => ⟨c, hc, hk⟩
  intro j k
  rw [hcalls, holds_modify hc]
  have hmark (k₀ : Nat) (fate : Fate) (hheld : c.phase.stream? = some k₀)
      (hnext : phase'.stream? = if fate.live then some k₀ else none) :
      Open (s.streams.modify k₀ fun st => { st with fate }) j k ↔
        if j = i then phase'.stream? = some k else Holds s.calls j k := by
    obtain ⟨st, hst, hcall, -⟩ := (hmine k₀).2 hheld
    rw [open_modify hst]
    by_cases hk : k = k₀
    · subst hk
      rw [if_pos rfl, hcall]
      split
      · rename_i hj
        rw [hnext, hj]
        cases fate.live <;> simp
      · -- no other call holds the stream
        rename_i hj
        constructor
        · exact fun hij => (hj hij.1.symm).elim
        · intro hother
          obtain ⟨st', hst', hcall', -⟩ := (h j k).2 hother
          rw [hst] at hst'
          cases hst'
          exact (hj (hcall'.symm.trans hcall)).elim
    · rw [if_neg hk]
      split
      · rename_i hj
        rw [hj, hmine k, hheld, hnext]
        cases fate.live <;> simp [Ne.symm hk]
      · exact h j k
  generalize s'.streams = streams' at hturns
  cases hturns with
  | keeps hkeep =>
    split
    · rename_i hj
      rw [hj, hmine k, hkeep]
    · exact h j k
  | opens goal hphase hphase' =>
    rw [open_concat]
    split
    · rename_i hj
      rw [hj, hmine k, hphase, hphase']
      simp [Phase.stream?, eq_comm]
    · rename_i hj
      simp [hj, h j k]
  | frames goal k₀ colo hphase hphase' =>
    exact hmark k₀ .framed (by rw [hphase]; rfl) (by rw [hphase', goal.stream?_connected]; rfl)
  | ends k₀ fate hheld hnext hfate => exact hmark k₀ fate hheld (by rw [hnext, hfate]; rfl)

private theorem Owned.step (h : Owned s) (hstep : s.step e = some s') : Owned s' := by
  cases e with
  | call host port =>
    cases hstep
    intro i k
    refine (h i k).trans ?_
    unfold Holds
    rw [List.getElem?_append]
    split
    · exact Iff.rfl
    · rename_i hge
      rw [List.getElem?_eq_none (Nat.not_lt.1 hge), List.getElem?_singleton]
      split
      · simp [stream?_firstPhase]
      · simp
  | act i action =>
    obtain ⟨c, hc, hact⟩ := Option.bind_eq_some_iff.1 hstep
    exact h.act hc hact

/-- A call that has returned a stream: the edge has accepted the request for its target on it. -/
def Returned (session : Session) (es : List Event) (streams : List Stream) (i : Nat) (port : UInt16) (k : Nat)
    (note : Option String) : Prop :=
  ∃ ip colo action, streams[k]? = some ⟨i, .target ip, .framed⟩ ∧ note = colo.map (fun c => s!"colo={c}") ∧
    .act i action ∈ es ∧ Accepts session port action (.target ip) colo

structure Tracked (es : List Event) (s : State session) : Prop where
  owned : Owned s
  aim : ∀ (i : Nat) (c : Call) goal k, s.calls[i]? = some c → c.phase = .exchanging goal k →
    ∃ st : Stream, s.streams[k]? = some st ∧ st.aim = goal.aim
  returned : ∀ (i : Nat) (c : Call) k note, s.calls[i]? = some c → c.phase = .returned (.ok (k, note)) →
    Returned session es s.streams i c.port k note

private theorem Tracked.call (h : Tracked es s) (host : Host) (port : UInt16)
    (hstep : s.step (.call host port) = some s') : Tracked (es ++ [.call host port]) s' := by
  have howned := h.owned.step hstep
  cases hstep
  have hold {j : Nat} {c : Call} (hcarries : c.phase.carries = true)
      (hc : (s.calls ++ [⟨host, port, State.firstPhase host⟩])[j]? = some c) : s.calls[j]? = some c := by
    rw [List.getElem?_append] at hc
    split at hc
    · exact hc
    · obtain rfl := List.mem_singleton.1 (List.mem_of_getElem? hc)
      cases host <;> cases hcarries
  refine ⟨howned, fun j c goal k hc hphase => ?_, fun j c k note hc hphase => ?_⟩
  · exact h.aim j c goal k (hold (by rw [hphase]; rfl) hc) hphase
  · obtain ⟨ip, colo, action, hst, hnote, hmem, haccepts⟩ :=
      h.returned j c k note (hold (by rw [hphase]; rfl) hc) hphase
    exact ⟨ip, colo, action, hst, hnote, List.mem_append_left _ hmem, haccepts⟩

private theorem Tracked.act (h : Tracked es s) (hc : s.calls[i]? = some c) (hact : s.act i c action = some s') :
    Tracked (es ++ [.act i action]) s' := by
  have howned := h.owned.act hc hact
  obtain ⟨phase', hcalls, hturns⟩ := act_turns hact
  -- the stream of another call stays as it is
  have hframe {j : Nat} {d : Call} {k : Nat} {st : Stream} (hj : j ≠ i) (hd : s.calls[j]? = some d)
      (hk : d.phase.stream? = some k) (hst : s.streams[k]? = some st) : s'.streams[k]? = some st := by
    refine hturns.frame hst fun hmine => hj ?_
    obtain ⟨st₁, hst₁, hcall₁, -⟩ := (h.owned j k).2 ⟨d, hd, hk⟩
    obtain ⟨st₂, hst₂, hcall₂, -⟩ := (h.owned i k).2 ⟨c, hc, hmine⟩
    rw [hst₁] at hst₂
    cases hst₂
    exact hcall₁.symm.trans hcall₂
  have hcall (j : Nat) (d : Call) (hd : s'.calls[j]? = some d) :
      (j ≠ i ∧ s.calls[j]? = some d) ∨ j = i ∧ d = { c with phase := phase' } := by
    rw [hcalls] at hd
    by_cases hj : i = j
    · subst hj
      rw [List.getElem?_modify_eq, hc] at hd
      cases hd
      exact .inr ⟨rfl, rfl⟩
    · rw [List.getElem?_modify_ne _ _ hj] at hd
      exact .inl ⟨Ne.symm hj, hd⟩
  refine ⟨howned, fun j d goal k hd hphase => ?_, fun j d k note hd hphase => ?_⟩
  · obtain ⟨hj, hd⟩ | ⟨rfl, rfl⟩ := hcall j d hd
    · obtain ⟨st, hst, haim⟩ := h.aim j d goal k hd hphase
      exact ⟨st, hframe hj hd (by rw [hphase]; rfl) hst, haim⟩
    · dsimp only at hphase
      subst hphase
      generalize s'.streams = streams' at hturns
      cases hturns with
      | keeps _ hcarries => cases hcarries
      | opens goal' _ hphase' =>
        cases hphase'
        exact ⟨_, by rw [List.getElem?_concat_length], rfl⟩
      | frames goal' k' colo _ hphase' => cases goal' <;> cases hphase'
      | ends k' fate _ hnone => cases hnone
  · obtain ⟨hj, hd⟩ | ⟨rfl, rfl⟩ := hcall j d hd
    · obtain ⟨ip, colo, action', hst, hnote, hmem, haccepts⟩ := h.returned j d k note hd hphase
      exact ⟨ip, colo, action', hframe hj hd (by rw [hphase]; rfl) hst, hnote, List.mem_append_left _ hmem, haccepts⟩
    · dsimp only at hphase
      subst hphase
      obtain ⟨st, hst, hcall', -⟩ := (howned j k).2 ⟨_, by rw [hcalls, List.getElem?_modify_eq, hc]; rfl, rfl⟩
      generalize s'.streams = streams' at hturns hst
      cases hturns with
      | keeps _ hcarries => cases hcarries
      | opens goal' _ hphase' => cases hphase'
      | frames goal' k' colo hphase hphase' haccepts =>
        cases goal' with
        | doh q => cases hphase'
        | target ip =>
          cases hphase'
          obtain ⟨st₀, hst₀, haim : st₀.aim = .target ip⟩ := h.aim j c (.target ip) k hc hphase
          refine ⟨ip, colo, action, ?_, rfl, by simp, haccepts⟩
          rw [List.getElem?_modify_eq, hst₀] at hst ⊢
          cases hst
          rw [← hcall', ← haim]
          rfl
      | ends k' fate _ hnone => cases hnone

end Streams

end WarpSocks.Masque.Dial
