import WarpSocks.IpDisplay
import WarpSocks.Machine.Tasks
import WarpSocks.Psiphon.Duplex
import WarpSocks.Wire.Varint

/-!
# The Psiphon session

Any number of calls of `Psiphon::connect_tcp` over one SSH session, with the streams they have returned.  A call
asks for a channel and waits for the server's answer; one that runs out of time or is dropped by its caller cannot
take the request back, so the guard `PendingOpen` closes the session.

As long as the session is open, every channel the server may hold has an owner (`psiphon_session_owned`): a call
that still waits, or a stream that its caller still has and whose task runs.
-/

namespace WarpSocks.Psiphon

open Wire.Varint (beBytes beValue)

/-! ### The request -/

/-- The host as `connect_tcp` writes it. -/
def hostText : Host → String
  | .domain name => name
  | .ip addr => IpText.display addr

/-- `PacketEncode::put_u32`. -/
def putU32 (n : Nat) : List UInt8 := beBytes 4 n

/-- `PacketEncode::put_str`. -/
def putStr (s : String) : List UInt8 := putU32 (Text.asBytes s).length ++ Text.asBytes s

/-- The payload of the request for a `direct-tcpip` channel. -/
def openPayload (host : Host) (port : UInt16) : List UInt8 :=
  putStr (hostText host) ++ putU32 port.toNat ++ putStr "127.0.0.1" ++ putU32 0

/-- A number of an SSH packet. -/
def getU32 (bytes : List UInt8) : Option (Nat × List UInt8) :=
  if bytes.length < 4 then none else some (beValue (bytes.take 4), bytes.drop 4)

/-- A string of an SSH packet. -/
def getStr (bytes : List UInt8) : Option (List UInt8 × List UInt8) := do
  let (n, rest) ← getU32 bytes
  if rest.length < n then none else some (rest.take n, rest.drop n)

/-- What the payload of a `direct-tcpip` request says: where to connect, and the originator. -/
structure OpenRequest where
  host : List UInt8
  port : Nat
  originator : List UInt8
  originatorPort : Nat
  deriving DecidableEq

def readOpen (payload : List UInt8) : Option OpenRequest := do
  let (host, rest) ← getStr payload
  let (port, rest) ← getU32 rest
  let (originator, rest) ← getStr rest
  let (originatorPort, rest) ← getU32 rest
  if rest = [] then some ⟨host, port, originator, originatorPort⟩ else none

private theorem getU32_putU32 {n : Nat} (h : n < 256 ^ 4) (rest : List UInt8) :
    getU32 (putU32 n ++ rest) = some (n, rest) := by
  have hlen : (putU32 n).length = 4 := Wire.Varint.length_beBytes 4 n
  unfold getU32
  rw [if_neg (by rw [List.length_append, hlen]; omega), List.take_left' hlen, List.drop_left' hlen]
  exact congrArg (fun v => some (v, rest)) (Wire.Varint.beValue_beBytes h)

private theorem getStr_putStr {s : String} (h : (Text.asBytes s).length < 256 ^ 4) (rest : List UInt8) :
    getStr (putStr s ++ rest) = some (Text.asBytes s, rest) := by
  unfold getStr putStr
  rw [List.append_assoc, getU32_putU32 h]
  simp only [Option.bind_eq_bind, Option.bind_some, List.length_append]
  rw [if_neg (by omega), List.take_left' rfl, List.drop_left' rfl]

/-- The server reads the host and the port the caller has given. -/
private theorem readOpen_openPayload {host : Host} (port : UInt16)
    (h : (Text.asBytes (hostText host)).length < 256 ^ 4) :
    readOpen (openPayload host port) = some ⟨Text.asBytes (hostText host), port.toNat, Text.asBytes "127.0.0.1",
      0⟩ := by
  have hport : port.toNat < 256 ^ 4 := Nat.lt_trans port.toNat_lt (by decide)
  have horiginator : (Text.asBytes "127.0.0.1").length < 256 ^ 4 := by decide
  have hzero := getU32_putU32 (n := 0) (by decide) []
  rw [List.append_nil] at hzero
  unfold readOpen openPayload
  simp only [List.append_assoc, Option.bind_eq_bind]
  rw [getStr_putStr h, Option.bind_some, getU32_putU32 hport, Option.bind_some, getStr_putStr horiginator,
    Option.bind_some, hzero, Option.bind_some, if_pos rfl]

/-! ### The calls -/

inductive Phase where
  /-- In `open_channel`, with `PendingOpen` armed. -/
  | opening
  | streaming (stream : Duplex)
  | failed (e : IoError)
  /-- Dropped by the caller before the answer. -/
  | abandoned

structure Call where
  host : Host
  port : UInt16
  payload : List UInt8
  /-- The server's answer, as far as it has arrived. -/
  answer : Option (Except String Unit)
  phase : Phase

def Call.new (host : Host) (port : UInt16) : Call := ⟨host, port, openPayload host port, none, .opening⟩

/-- The server has a channel for the call, or may get one. -/
def Call.live (c : Call) : Bool :=
  match c.answer, c.phase with
  | some (.error _), _ => false
  | _, .streaming d => !d.closed
  | _, _ => true

/-- The channel has an owner: a call that waits for it, or a stream that is held and whose task runs. -/
def Call.owned (c : Call) : Bool :=
  match c.phase with
  | .opening => true
  | .streaming d => !d.dropped && d.running
  | _ => false

structure Session where
  connected : Bool
  calls : List Call

def connectTimedOut : IoError := ⟨.timedOut, "Psiphon connect timed out"⟩

namespace Session

def start : Session := ⟨true, []⟩

inductive Event where
  | call (host : Host) (port : UInt16)
  /-- The server confirms or refuses the channel. -/
  | answer (i : Nat) (result : Except String Unit)
  /-- `open_channel` returns the answer. -/
  | opened (i : Nat)
  /-- `open_channel` fails with the session. -/
  | gone (i : Nat) (e : String)
  | expired (i : Nat)
  | abandoned (i : Nat)
  | stream (i : Nat) (e : Duplex.Event)
  /-- The server, the transport or the owner of the session ends it. -/
  | lost

def setCall (s : Session) (i : Nat) (c : Call) : Session := { s with calls := s.calls.set i c }

/-- `PendingOpen::drop`, with the client still in it. -/
def disconnect (s : Session) : Session := { s with connected := false }

def act (s : Session) (i : Nat) (c : Call) : Event → Option Session
  | .answer _ result => if s.connected && c.answer.isNone then some (s.setCall i { c with answer := some result })
    else none
  | .opened _ =>
    match c.phase, c.answer with
    | .opening, some (.ok ()) => some (s.setCall i { c with phase := .streaming .start })
    | .opening, some (.error e) => some (s.setCall i { c with phase := .failed ⟨.other, e⟩ })
    | _, _ => none
  | .gone _ e =>
    match c.phase with
    | .opening => if s.connected then none else some (s.setCall i { c with phase := .failed ⟨.other, e⟩ })
    | _ => none
  | .expired _ =>
    match c.phase with
    | .opening => some (s.setCall i { c with phase := .failed connectTimedOut }).disconnect
    | _ => none
  | .abandoned _ =>
    match c.phase with
    | .opening => some (s.setCall i { c with phase := .abandoned }).disconnect
    | _ => none
  | .stream _ e =>
    match c.phase with
    | .streaming d => (d.step e).map fun d => s.setCall i { c with phase := .streaming d }
    | _ => none
  | .call _ _ | .lost => none

/-- The call that an event is about. -/
def Event.call? : Event → Option Nat
  | answer i _ | opened i | gone i _ | expired i | abandoned i | stream i _ => some i
  | call _ _ | lost => none

def step (s : Session) : Event → Option Session
  | .call host port => some { s with calls := s.calls ++ [.new host port] }
  | .lost => some s.disconnect
  | e => e.call?.bind fun i => s.calls[i]?.bind fun c => s.act i c e

/-- The events that end the session. -/
def Event.ends : Event → Bool
  | expired _ | abandoned _ | lost => true
  | call _ _ | answer _ _ | opened _ | gone _ _ | stream _ _ => false

/-- The event as the stream of the call `i` sees it. -/
def Event.ofStream (i : Nat) : Event → List Duplex.Event
  | stream j e => if j = i then [e] else []
  | _ => []

/-- What happens to the stream of the call `i`. -/
def streamEvents (i : Nat) (es : List Event) : List Duplex.Event := es.flatMap (Event.ofStream i)

variable {s s' : Session} {i j : Nat} {c c' : Call} {e : Event} {es : List Event}

private theorem streamEvents_concat (i : Nat) (es : List Event) (e : Event) :
    streamEvents i (es ++ [e]) = streamEvents i es ++ e.ofStream i := by
  simp [streamEvents]

private theorem streamEvents_quiet (es : List Event) (h : e.ofStream i = []) :
    streamEvents i (es ++ [e]) = streamEvents i es := by
  rw [streamEvents_concat, h, List.append_nil]

private theorem ofStream_of_ne (h : e.call? ≠ some j) : e.ofStream j = [] := by
  cases e with
  | stream i e => exact if_neg fun hi => h (congrArg some hi)
  | _ => rfl

/-! ### What a step can do -/

/-- What a step about the call `i` makes of it and of the session. -/
inductive Turns (connected : Bool) (c : Call) : Event → Call → Bool → Prop where
  | answer (i : Nat) (result : Except String Unit) (h : connected = true) (hnone : c.answer = none) :
    Turns connected c (.answer i result) { c with answer := some result } connected
  | streams (i : Nat) (hphase : c.phase = .opening) (h : c.answer = some (.ok ())) :
    Turns connected c (.opened i) { c with phase := .streaming .start } connected
  | refused (i : Nat) (e : String) (hphase : c.phase = .opening) (h : c.answer = some (.error e)) :
    Turns connected c (.opened i) { c with phase := .failed ⟨.other, e⟩ } connected
  | gone (i : Nat) (e : String) (hphase : c.phase = .opening) (h : connected = false) :
    Turns connected c (.gone i e) { c with phase := .failed ⟨.other, e⟩ } connected
  | expired (i : Nat) (hphase : c.phase = .opening) : Turns connected c (.expired i)
    { c with phase := .failed connectTimedOut } false
  | abandoned (i : Nat) (hphase : c.phase = .opening) : Turns connected c (.abandoned i)
    { c with phase := .abandoned } false
  | stream (i : Nat) (e : Duplex.Event) (d d' : Duplex) (hphase : c.phase = .streaming d) (h : d.step e = some d') :
    Turns connected c (.stream i e) { c with phase := .streaming d' } connected

private theorem turns_of_act (h : s.act i c e = some s') :
    ∃ c', s'.calls = s.calls.set i c' ∧ Turns s.connected c e c' s'.connected := by
  cases e with
  | call host port => cases h
  | answer k result =>
    simp only [act] at h
    split at h
    · rename_i hif
      obtain ⟨hconnected, hnone⟩ := Bool.and_eq_true_iff.1 hif
      cases h
      exact ⟨_, rfl, .answer k result hconnected (Option.isNone_iff_eq_none.1 hnone)⟩
    · cases h
  | opened k =>
    simp only [act] at h
    split at h
    · rename_i hphase hanswer
      cases h
      exact ⟨_, rfl, .streams k hphase hanswer⟩
    · rename_i e hphase hanswer
      cases h
      exact ⟨_, rfl, .refused k e hphase hanswer⟩
    · cases h
  | gone k e =>
    simp only [act] at h
    split at h
    · rename_i hphase
      split at h
      · cases h
      · rename_i hgone
        cases h
        exact ⟨_, rfl, .gone k e hphase (Bool.eq_false_iff.2 hgone)⟩
    · cases h
  | expired k =>
    simp only [act] at h
    split at h
    · rename_i hphase
      cases h
      exact ⟨_, rfl, .expired k hphase⟩
    · cases h
  | abandoned k =>
    simp only [act] at h
    split at h
    · rename_i hphase
      cases h
      exact ⟨_, rfl, .abandoned k hphase⟩
    · cases h
  | stream k e =>
    simp only [act] at h
    split at h
    · rename_i d hphase
      obtain ⟨d', hstep, rfl⟩ := Option.map_eq_some_iff.1 h
      exact ⟨_, rfl, .stream k e d d' hphase hstep⟩
    · cases h
  | lost => cases h

/-- A step is a call, the end of the session, or a turn of one call. -/
private theorem step_cases (h : s.step e = some s') :
    (∃ host port, e = .call host port ∧ s' = { s with calls := s.calls ++ [.new host port] }) ∨
    (e = .lost ∧ s' = s.disconnect) ∨
    ∃ i c c', e.call? = some i ∧ s.calls[i]? = some c ∧ s'.calls = s.calls.set i c' ∧
      Turns s.connected c e c' s'.connected := by
  have turn : e.call?.bind (fun i => s.calls[i]?.bind fun c => s.act i c e) = some s' →
      ∃ i c c', e.call? = some i ∧ s.calls[i]? = some c ∧ s'.calls = s.calls.set i c' ∧
        Turns s.connected c e c' s'.connected := by
    intro h
    obtain ⟨i, hi, h⟩ := Option.bind_eq_some_iff.1 h
    obtain ⟨c, hc, h⟩ := Option.bind_eq_some_iff.1 h
    obtain ⟨c', hcalls, hturns⟩ := turns_of_act h
    exact ⟨i, c, c', hi, hc, hcalls, hturns⟩
  cases e with
  | call host port =>
    cases h
    exact .inl ⟨host, port, rfl, rfl⟩
  | lost =>
    cases h
    exact .inr (.inl ⟨rfl, rfl⟩)
  | answer k result => exact .inr (.inr (turn h))
  | opened k => exact .inr (.inr (turn h))
  | gone k e => exact .inr (.inr (turn h))
  | expired k => exact .inr (.inr (turn h))
  | abandoned k => exact .inr (.inr (turn h))
  | stream k e => exact .inr (.inr (turn h))

/-! ### The invariant -/

/-- What is known of a call, from the events of its stream. -/
def Known (connected : Bool) (own : List Duplex.Event) (c : Call) : Prop :=
  match c.phase with
  | .opening => own = []
  | .streaming d => c.answer = some (.ok ()) ∧ Machine.exec Duplex.step .start own = some d
  | .failed e => own = [] ∧ (connected = true → ∃ text, c.answer = some (.error text) ∧ e = ⟨.other, text⟩)
  | .abandoned => own = [] ∧ connected = false

structure Sound (es : List Event) (s : Session) : Prop where
  /-- There are no events of calls that were not made. -/
  fresh : ∀ i, s.calls[i]? = none → streamEvents i es = []
  known : ∀ i c, s.calls[i]? = some c → Known s.connected (streamEvents i es) c
  payload : ∀ c ∈ s.calls, c.payload = openPayload c.host c.port
  connected : s.connected = true ↔ ∀ e ∈ es, e.ends = false

private theorem sound_start : Sound [] start :=
  ⟨fun _ _ => rfl, fun _ _ h => (by cases h), fun _ h => (by cases h), ⟨fun _ _ h => (by cases h), fun _ => rfl⟩⟩

/-- Nothing brings a session back. -/
private theorem Known.mono {connected connected' : Bool} {own : List Duplex.Event} (h : Known connected own c)
    (himp : connected' = true → connected = true) : Known connected' own c := by
  unfold Known at h ⊢
  split at h
  · exact h
  · exact h
  · exact ⟨h.1, fun hc => h.2 (himp hc)⟩
  · exact ⟨h.1, Bool.eq_false_iff.2 fun hc => by rw [himp hc] at h; cases h.2⟩

private theorem Turns.payload {connected connected' : Bool} (h : Turns connected c e c' connected') :
    c'.host = c.host ∧ c'.port = c.port ∧ c'.payload = c.payload := by
  cases h <;> exact ⟨rfl, rfl, rfl⟩

private theorem Turns.connected {connected connected' : Bool} (h : Turns connected c e c' connected') :
    connected' = (connected && !e.ends) := by
  cases h <;> simp [Event.ends]

private theorem Known.turns {connected connected' : Bool} {own : List Duplex.Event} (h : Known connected own c)
    (hi : e.call? = some i) (hturns : Turns connected c e c' connected') :
    Known connected' (own ++ e.ofStream i) c' := by
  cases hturns with
  | answer k result hconnected hnone =>
    rw [show (Event.answer k result).ofStream i = [] from rfl, List.append_nil]
    unfold Known at h ⊢
    dsimp only
    split at h
    · exact h
    · rw [hnone] at h
      cases h.1
    · obtain ⟨text, htext, -⟩ := h.2 hconnected
      rw [hnone] at htext
      cases htext
    · rw [hconnected] at h
      cases h.2
  | streams k hphase hanswer =>
    unfold Known at h
    rw [hphase] at h
    subst h
    exact ⟨hanswer, rfl⟩
  | refused k text hphase hanswer =>
    unfold Known at h
    rw [hphase] at h
    subst h
    exact ⟨rfl, fun _ => ⟨text, hanswer, rfl⟩⟩
  | gone k text hphase hconnected =>
    unfold Known at h
    rw [hphase] at h
    subst h
    refine ⟨rfl, fun hc => ?_⟩
    rw [hconnected] at hc
    cases hc
  | expired k hphase =>
    unfold Known at h
    rw [hphase] at h
    subst h
    exact ⟨rfl, fun hc => (by cases hc)⟩
  | abandoned k hphase =>
    unfold Known at h
    rw [hphase] at h
    subst h
    exact ⟨rfl, rfl⟩
  | stream k f d d' hphase hstep =>
    unfold Known at h
    rw [hphase] at h
    rw [show (Event.stream k f).ofStream i = [f] from if_pos (Option.some.inj hi)]
    exact ⟨h.1, Machine.exec_concat.2 ⟨d, h.2, hstep⟩⟩

private theorem forall_ends_concat : (∀ f ∈ es ++ [e], f.ends = false) ↔ (∀ f ∈ es, f.ends = false) ∧
    e.ends = false := by
  rw [List.forall_mem_append, List.forall_mem_singleton]

private theorem Sound.step (h : Sound es s) (hstep : s.step e = some s') : Sound (es ++ [e]) s' := by
  rcases step_cases hstep with ⟨host, port, rfl, rfl⟩ | ⟨rfl, rfl⟩ | ⟨i, c, c', hi, hc, hcalls, hturns⟩
  · have hquiet : ∀ k, streamEvents k (es ++ [.call host port]) = streamEvents k es :=
      fun k => streamEvents_quiet es rfl
    refine ⟨fun k hk => ?_, fun k x hx => ?_, fun x hx => ?_, ?_⟩
    · rw [hquiet]
      refine h.fresh k (List.getElem?_eq_none ?_)
      have := List.getElem?_eq_none_iff.1 hk
      rw [List.length_append] at this
      omega
    · rw [hquiet]
      rcases Machine.getElem?_concat_cases hx with ⟨rfl, rfl⟩ | hold
      · exact h.fresh _ (List.getElem?_eq_none (Nat.le_refl _))
      · exact h.known k x hold
    · rcases List.mem_append.1 hx with hx | hx
      · exact h.payload x hx
      · rw [List.mem_singleton.1 hx]
        rfl
    · rw [forall_ends_concat]
      exact h.connected.trans (and_iff_left rfl).symm
  · have hquiet : ∀ k, streamEvents k (es ++ [.lost]) = streamEvents k es := fun k => streamEvents_quiet es rfl
    refine ⟨fun k hk => ?_, fun k x hx => ?_, h.payload, ⟨fun hc => (by cases hc), fun hall => ?_⟩⟩
    · rw [hquiet]
      exact h.fresh k hk
    · rw [hquiet]
      exact (h.known k x hx).mono fun hc => (by cases hc)
    · cases (forall_ends_concat.1 hall).2
  · have himp : s'.connected = true → s.connected = true := by
      rw [hturns.connected]
      exact fun hand => (Bool.and_eq_true_iff.1 hand).1
    have hother : ∀ k, k ≠ i → streamEvents k (es ++ [e]) = streamEvents k es := by
      intro k hk
      refine streamEvents_quiet es (ofStream_of_ne ?_)
      rw [hi]
      exact fun hik => hk (Option.some.inj hik).symm
    refine ⟨fun k hk => ?_, fun k x hx => ?_, fun x hx => ?_, ?_⟩
    · rw [hcalls, List.getElem?_eq_none_iff, List.length_set] at hk
      have hlt := (List.getElem?_eq_some_iff.1 hc).1
      rw [hother k (by omega)]
      exact h.fresh k (List.getElem?_eq_none hk)
    · rw [hcalls] at hx
      rcases Machine.getElem?_set_cases hx with ⟨rfl, rfl⟩ | ⟨hne, hold⟩
      · rw [streamEvents_concat]
        exact (h.known k c hc).turns hi hturns
      · rw [hother k hne]
        exact (h.known k x hold).mono himp
    · rw [hcalls] at hx
      rcases List.mem_or_eq_of_mem_set hx with hx | rfl
      · exact h.payload x hx
      · obtain ⟨hhost, hport, hpayload⟩ := hturns.payload
        rw [hhost, hport, hpayload]
        exact h.payload c (List.mem_of_getElem? hc)
    · rw [forall_ends_concat, hturns.connected, Bool.and_eq_true, h.connected, Bool.not_eq_true']

private theorem sound_exec (h : Machine.exec step start es = some s) : Sound es s :=
  Machine.exec_induction_events (P := Sound) (fun _ _ _ _ hs h => hs.step h) sound_start h

private theorem Known.owned {own : List Duplex.Event} (h : Known true own c) (hlive : c.live = true) :
    c.owned = true := by
  unfold Known at h
  unfold Call.owned
  split at h
  · rename_i hphase
    rw [hphase]
  · rename_i d hphase
    rw [hphase]
    have hclosed : d.closed = false := by
      unfold Call.live at hlive
      rw [h.1, hphase] at hlive
      exact Bool.not_eq_eq_eq_not.1 hlive
    have hwhole := (Duplex.whole_exec h.2).closed
    rw [hclosed] at hwhole
    have hdropped : d.dropped = false := Bool.eq_false_iff.2 fun hd => by cases hwhole.2 (.inl hd)
    have hover : d.hasReturned = false := Bool.eq_false_iff.2 fun ho => by cases hwhole.2 (.inr ho)
    show (!d.dropped && d.running) = true
    unfold Duplex.hasReturned at hover
    unfold Duplex.running
    rw [hdropped, ← Option.not_isSome, hover]
    rfl
  · obtain ⟨text, htext, -⟩ := h.2 rfl
    unfold Call.live at hlive
    rw [htext] at hlive
    cases hlive
  · cases h.2

/-- In every order of the calls, the answers of the server, the timeouts and what happens to the streams: the
session is open unless a call has run out of time or was dropped while it waited, or the session was lost.  While
it is open, every channel the server may hold is owned by a call that waits for it or by a stream in use.  A call
asks for the host and port it was given, fails with `TimedOut` only with the session, and its stream goes through
the stream's own events from the start. -/
theorem psiphon_session_owned (es : List Event) (s : Session) (h : Machine.exec step start es = some s) :
    (s.connected = true ↔ ∀ e ∈ es, e.ends = false) ∧
    (s.connected = true → ∀ c ∈ s.calls, c.live = true → c.owned = true) ∧
    (∀ c ∈ s.calls, ∀ e, c.phase = .failed e → e.kind = .timedOut → s.connected = false) ∧
    (∀ c ∈ s.calls, (Text.asBytes (hostText c.host)).length < 256 ^ 4 → readOpen c.payload =
      some ⟨Text.asBytes (hostText c.host), c.port.toNat, Text.asBytes "127.0.0.1", 0⟩) ∧
    (∀ i c d, s.calls[i]? = some c → c.phase = .streaming d →
      c.answer = some (.ok ()) ∧ Machine.exec Duplex.step .start (streamEvents i es) = some d) := by
  have hs := sound_exec h
  have hknown : ∀ c ∈ s.calls, ∃ own, Known s.connected own c := by
    intro c hc
    obtain ⟨i, hi⟩ := List.mem_iff_getElem?.1 hc
    exact ⟨_, hs.known i c hi⟩
  refine ⟨hs.connected, fun hc c hmem hlive => ?_, fun c hmem e hphase hkind => ?_, fun c hmem hlen => ?_,
    fun i c d hi hphase => ?_⟩
  · obtain ⟨own, hown⟩ := hknown c hmem
    rw [hc] at hown
    exact hown.owned hlive
  · obtain ⟨own, hown⟩ := hknown c hmem
    refine Bool.eq_false_iff.2 fun hc => ?_
    unfold Known at hown
    rw [hphase] at hown
    obtain ⟨text, -, rfl⟩ := hown.2 hc
    cases hkind
  · rw [hs.payload c hmem]
    exact readOpen_openPayload c.port hlen
  · have hown := hs.known i c hi
    unfold Known at hown
    rw [hphase] at hown
    exact hown

/-- One stream is in use, a second call is refused and a third runs out of time. -/
def timedOutRun : List Event :=
  [.call (.domain "a.example") 443, .answer 0 (.ok ()), .opened 0, .call (.domain "b.example") 80,
    .answer 1 (.error "refused"), .opened 1, .stream 0 (.write [1]), .call (.domain "c.example") 80, .expired 2]

theorem psiphon_session_owned_timed_out : ∃ s, Machine.exec step start timedOutRun = some s ∧ s.calls.length = 3 ∧
    s.connected = false :=
  ⟨_, rfl, rfl, (psiphon_session_owned timedOutRun _ rfl).2.2.1 _
    (List.mem_of_getElem? (i := 2) rfl) connectTimedOut rfl rfl⟩

end Session

end WarpSocks.Psiphon
