import WarpSocks.Dns.Response
import WarpSocks.Masque.Dial

/-!
# Where a MASQUE call connects to

Over every run of the calls of `connect_tcp`: the streams that a call opens are at most the four queries in their
order and one for its target, what the edge is asked for is always a socket address and never a name, and the
address a name stands for was given by an answer to a query for that name, of the call itself or of one before it;
then it was the last one stored, and had not expired when it was looked up (`connectTcp_resolves`).  The stream
that a call returns goes to that address (`connectTcp_streams`).
-/

namespace WarpSocks.Masque.Dial

open Wire (Reader Writer)

variable {session : Session} {s s' : State session} {i : Nat} {c : Call} {action : Action} {es : List Event}
    {e : Event}

/-- The call `j` has asked for the name, and the answer that it has read gives the address and for how many
seconds. -/
def Answered (session : Session) (es : List Event) (j : Nat) (domain : String) (ip : IpAddr) (ttl : UInt32) : Prop :=
  ∃ (front back : List Event) (input : AskInput) (s : State session) (c : Call) (q : Question) (k : Nat),
    es = front ++ .act j (.answered input) :: back ∧ Machine.exec State.step .start front = some s ∧
    s.calls[j]? = some c ∧ c.phase = .asking q k ∧ q.domain = domain ∧
    resolveOver session domain q.recordType input = pure (ip, ttl)

/-- When an address expires that was stored at the time for so many seconds. -/
def expiry (stored : Nat) (ttl : UInt32) : Nat :=
  stored + ((Duration.fromSecs ttl.toNat).clamp Doh.MIN_TTL Doh.MAX_TTL).asNanos

/-- When the call `i` has looked the name up, the address was the last one stored for it, as some call had been
given it, and had not expired. -/
def Hit (session : Session) (es : List Event) (i : Nat) (domain : String) (ip : IpAddr) : Prop :=
  ∃ (front back : List Event) (now stored : Nat) (ttl : UInt32) (s : State session) (j : Nat),
    es = front ++ .act i (.looked now) :: back ∧ Machine.exec State.step .start front = some s ∧
    Doh.Stored s.history domain ⟨ip, expiry stored ttl⟩ ∧ now < expiry stored ttl ∧
    Answered session front j domain ip ttl

/-- The host is the address, or a name for which the call has found it. -/
def Reached (session : Session) (es : List Event) (i : Nat) (host : Host) (ip : IpAddr) : Prop :=
  host = .ip ip ∨ ∃ domain, host = .domain domain ∧
    (Hit session es i domain ip ∨ ∃ ttl, Answered session es i domain ip ttl)

private theorem Answered.concat {domain : String} {ip : IpAddr} {ttl : UInt32}
    (h : Answered session es i domain ip ttl) (e : Event) : Answered session (es ++ [e]) i domain ip ttl := by
  obtain ⟨front, back, input, s, c, q, k, rfl, h⟩ := h
  exact ⟨front, back ++ [e], input, s, c, q, k, List.append_assoc .., h⟩

private theorem Reached.concat {host : Host} {ip : IpAddr} (h : Reached session es i host ip) (e : Event) :
    Reached session (es ++ [e]) i host ip := by
  rcases h with hip | ⟨domain, hhost, hhit | ⟨ttl, hanswered⟩⟩
  · exact .inl hip
  · obtain ⟨front, back, now, stored, ttl, s, j, rfl, h⟩ := hhit
    exact .inr ⟨domain, hhost, .inl ⟨front, back ++ [e], now, stored, ttl, s, j, List.append_assoc .., h⟩⟩
  · exact .inr ⟨domain, hhost, .inr ⟨ttl, hanswered.concat e⟩⟩

/-! ### The streams of a call -/

/-- What the streams of a call were opened for, in their order. -/
def aimsOf (streams : List Stream) (i : Nat) : List Aim := (streams.filter fun st => st.call = i).map Stream.aim

private theorem aimsOf_modify (streams : List Stream) (k : Nat) (fate : Fate) (i : Nat) :
    aimsOf (streams.modify k fun st => { st with fate }) i = aimsOf streams i := by
  induction streams generalizing k with
  | nil => cases k <;> rfl
  | cons st streams ih =>
    cases k with
    | zero =>
      by_cases hi : st.call = i
      · simp [aimsOf, List.modify_zero_cons, hi]
      · simp [aimsOf, List.modify_zero_cons, hi]
    | succ k =>
      rw [List.modify_succ_cons]
      have := ih k
      by_cases hi : st.call = i
      · simpa [aimsOf, hi] using this
      · simpa [aimsOf, hi] using this

private theorem call_of_mem_modify {streams : List Stream} {k : Nat} {fate : Fate} {st : Stream}
    (h : st ∈ streams.modify k fun st => { st with fate }) : ∃ st₀ ∈ streams, st₀.call = st.call := by
  obtain ⟨j, hj⟩ := List.mem_iff_getElem?.1 h
  rw [List.getElem?_modify] at hj
  obtain ⟨st₀, hst₀, rfl⟩ := Option.map_eq_some_iff.1 hj
  refine ⟨st₀, List.mem_of_getElem? hst₀, ?_⟩
  split <;> rfl

private theorem aimsOf_concat (streams : List Stream) (i : Nat) (aim : Aim) (fate : Fate) (j : Nat) :
    aimsOf (streams ++ [⟨i, aim, fate⟩]) j = aimsOf streams j ++ if j = i then [aim] else [] := by
  by_cases hj : j = i
  · simp [aimsOf, hj]
  · simp [aimsOf, hj, Ne.symm hj]

/-- The queries that a call may make. -/
def trail : Host → List Aim
  | .domain _ => queries
  | .ip _ => []

/-- The queries for which a call may still open a stream. -/
def Phase.ahead : Phase → List Aim
  | looking _ => queries
  | opening (.doh q) => .doh q.recordType q.addr :: q.rest
  | exchanging (.doh q) _ | asking q _ => q.rest
  | _ => []

/-- The stream for the target was not opened yet. -/
def Phase.early : Phase → Bool
  | looking _ | opening _ | exchanging (.doh _) _ | asking _ _ | storing _ _ _ _ => true
  | _ => false

/-- The name that a call resolves. -/
def Phase.domain? : Phase → Option String
  | looking domain | storing domain _ _ _ => some domain
  | opening (.doh q) | exchanging (.doh q) _ | asking q _ => some q.domain
  | _ => none

/-- The address that a call connects to. -/
def Phase.target? : Phase → Option IpAddr
  | opening (.target ip) | exchanging (.target ip) _ => some ip
  | _ => none

private theorem ahead_askNext (domain : String) (rest : List Aim) (lastErr : Option Chain) :
    (askNext domain rest lastErr).ahead.Sublist rest := by
  unfold askNext
  split
  · exact List.Sublist.refl _
  · exact List.nil_sublist _

private theorem domain?_askNext {domain d : String} {rest : List Aim} {lastErr : Option Chain}
    (h : (askNext domain rest lastErr).domain? = some d) : d = domain := by
  unfold askNext at h
  split at h
  · cases h
    rfl
  · cases h

private theorem target?_askNext (domain : String) (rest : List Aim) (lastErr : Option Chain) :
    (askNext domain rest lastErr).target? = none := by
  unfold askNext
  split <;> rfl

/-- The streams of a call so far: some of the queries in their order, and at most one for the target. -/
def Opened (es : List Event) (s : State session) (i : Nat) (host : Host) (phase : Phase) : Prop :=
  ∃ doh targets, aimsOf s.streams i = doh ++ targets ∧ (doh ++ phase.ahead).Sublist (trail host) ∧
    targets.length ≤ 1 ∧
    (∀ aim ∈ targets, ∃ ip, aim = .target ip ∧ Reached session es i host ip) ∧ (phase.early = true → targets = [])

private theorem Opened.keep {host : Host} {phase phase' : Phase} (h : Opened es s i host phase) (e : Event)
    (haims : aimsOf s'.streams i = aimsOf s.streams i) (hahead : phase'.ahead.Sublist phase.ahead)
    (hearly : phase'.early = true → phase.early = true) : Opened (es ++ [e]) s' i host phase' := by
  obtain ⟨doh, targets, heq, hsub, hlen, hreached, hempty⟩ := h
  refine ⟨doh, targets, haims.trans heq, (hahead.append_left doh).trans hsub, hlen, fun aim haim => ?_,
    fun hearly' => hempty (hearly hearly')⟩
  obtain ⟨ip, haim, hr⟩ := hreached aim haim
  exact ⟨ip, haim, hr.concat e⟩

/-- What is known of a call. -/
structure Followed (es : List Event) (s : State session) (i : Nat) (c : Call) : Prop where
  domain : ∀ d, c.phase.domain? = some d → c.host = .domain d
  target : ∀ ip, c.phase.target? = some ip → Reached session es i c.host ip
  answered : ∀ d ip ttl k, c.phase = .storing d ip ttl k → Answered session es i d ip ttl
  opened : Opened es s i c.host c.phase

/-- A phase in which nothing new is resolved. -/
structure Follows (phase phase' : Phase) : Prop where
  domain : ∀ d, phase'.domain? = some d → phase.domain? = some d
  target : ∀ ip, phase'.target? = some ip → phase.target? = some ip
  ahead : phase'.ahead.Sublist phase.ahead
  early : phase'.early = true → phase.early = true

private theorem Follows.refl (phase : Phase) : Follows phase phase :=
  ⟨fun _ h => h, fun _ h => h, List.Sublist.refl _, id⟩

/-- A call that ends. -/
private theorem Follows.ended {phase phase' : Phase} (h : phase'.running = false) : Follows phase phase' := by
  cases phase' with
  | looking | opening | exchanging | asking | storing => cases h
  | returned | abandoned | panicked =>
    exact ⟨fun _ hd => (by cases hd), fun _ hip => (by cases hip), List.nil_sublist _, fun he => (by cases he)⟩

private theorem follows_askNext {phase : Phase} {domain : String} {rest : List Aim}
    (hdomain : phase.domain? = some domain)
    (hahead : rest.Sublist phase.ahead) (hearly : phase.early = true) (lastErr : Option Chain) :
    Follows phase (askNext domain rest lastErr) := by
  refine ⟨fun d hd => ?_, fun ip hip => ?_, (ahead_askNext _ _ _).trans hahead, fun _ => hearly⟩
  · rw [hdomain, domain?_askNext hd]
  · rw [target?_askNext] at hip
    cases hip

private theorem Goal.follows_failed {phase : Phase} {goal : Goal} {k : Nat}
    (h : phase = .opening goal ∨ phase = .exchanging goal k)
    (port : UInt16) (e : Chain) : Follows phase (goal.failed port e) := by
  cases goal with
  | doh q =>
    rcases h with rfl | rfl
    · exact follows_askNext rfl (List.sublist_cons_self _ _) rfl _
    · exact follows_askNext rfl (List.Sublist.refl _) rfl _
  | target ip => exact .ended rfl

private theorem Goal.follows_connected (goal : Goal) (k : Nat) (colo : Option String) :
    Follows (.exchanging goal k) (goal.connected k colo) := by
  cases goal with
  | doh q => exact ⟨fun _ hd => hd, fun _ hip => (by cases hip), List.Sublist.refl _, id⟩
  | target ip => exact .ended rfl

private theorem Followed.follow {phase' : Phase} (h : Followed es s i c) (e : Event)
    (haims : aimsOf s'.streams i = aimsOf s.streams i) (hfollows : Follows c.phase phase')
    (hstoring : ∀ d ip ttl k, phase' = .storing d ip ttl k → Answered session (es ++ [e]) i d ip ttl) :
    Followed (es ++ [e]) s' i { c with phase := phase' } :=
  ⟨fun d hd => h.domain d (hfollows.domain d hd), fun ip hip => (h.target ip (hfollows.target ip hip)).concat e,
    hstoring, h.opened.keep e haims hfollows.ahead hfollows.early⟩

/-- A call that does not go on. -/
private theorem Followed.stay (h : Followed es s i c) (e : Event) (haims : aimsOf s'.streams i = aimsOf s.streams i) :
    Followed (es ++ [e]) s' i c :=
  h.follow e haims (.refl _) fun d ip ttl k hs => (h.answered d ip ttl k hs).concat e

/-! ### Steps -/

/-- What is stored was given by an answer for the name, with its seconds. -/
def Backed (session : Session) (es : List Event) (history : List Doh.Call) : Prop :=
  ∀ visit d ip ttl now, .store visit d ip ttl now ∈ history →
    ∃ j secs, ttl = .fromSecs secs.toNat ∧ Answered session es j d ip secs

structure Sound (es : List Event) (s : State session) : Prop where
  cache : s.cache = Doh.after s.history
  backed : Backed session es s.history
  bound : ∀ st ∈ s.streams, st.call < s.calls.length
  calls : ∀ i c, s.calls[i]? = some c → Followed es s i c

private theorem sound_start : Sound [] (State.start : State session) :=
  ⟨rfl, fun _ _ _ _ _ h => (nomatch h), fun _ h => (nomatch h), fun _ _ h => (nomatch h)⟩

private theorem Backed.concat {history : List Doh.Call} (h : Backed session es history) (e : Event) :
    Backed session (es ++ [e]) history := by
  intro visit d ip ttl now hmem
  obtain ⟨j, secs, hsecs, hanswered⟩ := h visit d ip ttl now hmem
  exact ⟨j, secs, hsecs, hanswered.concat e⟩

private theorem Backed.cached {history : List Doh.Call} (h : Backed session es history) (domain : String)
    (now : Nat) :
    Backed session es (history ++ [.cached domain now]) := by
  intro visit d ip ttl t hmem
  rcases List.mem_append.1 hmem with hmem | hmem
  · exact h visit d ip ttl t hmem
  · cases List.mem_singleton.1 hmem

/-- The cache has for a name only what an answer for the name has given. -/
private theorem Backed.of_stored {history : List Doh.Call} (h : Backed session es history) {domain : String}
    {entry : Doh.CacheEntry} (hstored : Doh.Stored history domain entry) :
    ∃ stored ttl j, entry.expiresAt = expiry stored ttl ∧ Answered session es j domain entry.ip ttl := by
  obtain ⟨before, call, after, rfl, hwrites, -⟩ := hstored
  cases call with
  | cached => cases hwrites
  | store visit d ip ttl now =>
    cases hwrites
    obtain ⟨j, secs, rfl, hanswered⟩ := h visit domain ip ttl now (by simp)
    exact ⟨now, secs, j, rfl, hanswered⟩

/-- What a look-up returns is an entry that has not expired. -/
private theorem of_cached_eq_some {entries : Doh.Entries} {domain : String} {now : Nat} {ip : IpAddr}
    (h : (Doh.cached entries domain now).1 = some ip) :
    ∃ entry, entries.lookup domain = some entry ∧ now < entry.expiresAt ∧ entry.ip = ip := by
  unfold Doh.cached at h
  split at h
  · rename_i entry hentry
    split at h
    · rename_i hfresh
      cases h
      exact ⟨entry, hentry, hfresh, rfl⟩
    · cases h
  · cases h

/-- One call goes on, and the streams of the others are as they were. -/
private theorem Sound.move {phase' : Phase} (h : Sound es s) (hc : s.calls[i]? = some c)
    (hcalls : s'.calls = s.calls.modify i fun c => { c with phase := phase' })
    (hcache : s'.cache = Doh.after s'.history)
    (hbacked : Backed session (es ++ [e]) s'.history) (hbound : ∀ st ∈ s'.streams, st.call < s.calls.length)
    (haims : ∀ j, j ≠ i → aimsOf s'.streams j = aimsOf s.streams j)
    (hnew : Followed (es ++ [e]) s' i { c with phase := phase' }) : Sound (es ++ [e]) s' := by
  refine ⟨hcache, hbacked, fun st hst => ?_, fun j d hd => ?_⟩
  · rw [hcalls, List.length_modify]
    exact hbound st hst
  · rw [hcalls] at hd
    by_cases hj : i = j
    · subst hj
      rw [List.getElem?_modify_eq, hc] at hd
      cases hd
      exact hnew
    · rw [List.getElem?_modify_ne _ _ hj] at hd
      exact (h.calls j d hd).stay e (haims j (Ne.symm hj))

/-- A step with which nothing is recorded and no stream opened. -/
private theorem Sound.quiet {phase' : Phase} (h : Sound es s) (hc : s.calls[i]? = some c)
    (hcalls : s'.calls = s.calls.modify i fun c => { c with phase := phase' })
    (hsame : s'.cache = s.cache ∧ s'.history = s.history)
    (hstreams : s'.streams = s.streams ∨ ∃ k fate, s'.streams = s.streams.modify k fun st => { st with fate })
    (hfollows : Follows c.phase phase') (hstoring : ∀ d ip ttl k, phase' ≠ .storing d ip ttl k) :
    Sound (es ++ [e]) s' := by
  obtain ⟨hcache, hhistory⟩ := hsame
  have haims (j : Nat) : aimsOf s'.streams j = aimsOf s.streams j := by
    rcases hstreams with heq | ⟨k, fate, heq⟩
    · rw [heq]
    · rw [heq, aimsOf_modify]
  have hbound : ∀ st ∈ s'.streams, st.call < s.calls.length := by
    intro st hst
    rcases hstreams with heq | ⟨k, fate, heq⟩
    · rw [heq] at hst
      exact h.bound st hst
    · rw [heq] at hst
      obtain ⟨st₀, hst₀, hcall⟩ := call_of_mem_modify hst
      exact hcall ▸ h.bound st₀ hst₀
  exact h.move hc hcalls (by rw [hcache, hhistory, h.cache]) (by rw [hhistory]; exact h.backed.concat e) hbound
    (fun j _ => haims j) ((h.calls i c hc).follow e (haims i) hfollows fun d ip ttl k hs =>
      (hstoring d ip ttl k hs).elim)

private theorem Sound.looked {now : Nat} (hrun : Machine.exec State.step .start es = some s) (h : Sound es s)
    (hc : s.calls[i]? = some c) (hact : s.act i c (.looked now) = some s') :
    Sound (es ++ [.act i (.looked now)]) s' := by
  simp only [State.act] at hact
  split at hact
  case h_2 => cases hact
  rename_i domain hphase
  have hfollowed := h.calls i c hc
  have hhost : c.host = .domain domain := hfollowed.domain domain (by rw [hphase]; rfl)
  have hcache : (Doh.cached s.cache domain now).2 = Doh.after (s.history ++ [.cached domain now]) := by
    rw [Doh.after_concat, h.cache]
    rfl
  have hbacked := (h.backed.concat (.act i (.looked now))).cached domain now
  split at hact
  · rename_i ip hhit
    cases hact
    obtain ⟨⟨ip', expiresAt⟩, hlookup, hfresh, rfl⟩ := of_cached_eq_some hhit
    have hentry : Doh.Stored s.history domain ⟨ip', expiresAt⟩ := Doh.stored_of_lookup (h.cache ▸ hlookup)
    refine h.move hc rfl hcache hbacked h.bound (fun _ _ => rfl)
      ⟨fun _ hd => (by cases hd), fun ip hip => ?_, fun _ _ _ _ hs => (by cases hs), ?_⟩
    · cases hip
      obtain ⟨stored, ttl, j, rfl, hanswered⟩ := h.backed.of_stored hentry
      exact .inr ⟨domain, hhost, .inl ⟨es, [], now, stored, ttl, s, j, rfl, hrun, hentry, hfresh, hanswered⟩⟩
    · exact hfollowed.opened.keep _ rfl (List.nil_sublist _) fun _ => by rw [hphase]; rfl
  · cases hact
    refine h.move hc rfl hcache hbacked h.bound (fun _ _ => rfl)
      (hfollowed.follow _ rfl ?_ fun d ip ttl k hs => (by cases hs))
    rw [hphase]
    exact follows_askNext rfl (List.Sublist.refl _) rfl none

private theorem ne_storing_askNext (domain : String) (rest : List Aim) (lastErr : Option Chain) (d : String)
    (ip : IpAddr) (ttl : UInt32) (k : Nat) : askNext domain rest lastErr ≠ .storing d ip ttl k := by
  unfold askNext
  split <;> exact fun h => by cases h

private theorem ne_storing_failed (goal : Goal) (port : UInt16) (e : Chain) (d : String) (ip : IpAddr)
    (ttl : UInt32) (k : Nat) :
    goal.failed port e ≠ .storing d ip ttl k := by
  cases goal with
  | doh q => exact ne_storing_askNext _ _ _ _ _ _ _
  | target => exact fun h => by cases h

private theorem Sound.opened {result : Except Chain Unit} (h : Sound es s) (hc : s.calls[i]? = some c)
    (hact : s.act i c (.opened result) = some s') : Sound (es ++ [.act i (.opened result)]) s' := by
  simp only [State.act] at hact
  split at hact
  case h_2 => cases hact
  rename_i goal hphase
  split at hact
  · cases hact
    exact h.quiet hc rfl ⟨rfl, rfl⟩ (.inl rfl) (goal.follows_failed (k := 0) (.inl hphase) _ _)
      (ne_storing_failed _ _ _)
  · cases hact
    have hfollowed := h.calls i c hc
    obtain ⟨doh, targets, heq, hsub, hlen, hreached, hempty⟩ := hfollowed.opened
    obtain rfl : targets = [] := hempty (by rw [hphase]; rfl)
    rw [hphase] at hsub
    have haims : aimsOf (s.streams ++ [⟨i, goal.aim, .held⟩]) i = doh ++ [goal.aim] := by
      rw [aimsOf_concat, if_pos rfl, heq, List.append_nil]
    refine h.move hc rfl h.cache (h.backed.concat _) ?_ (fun j hj => ?_)
      ⟨?_, ?_, fun _ _ _ _ hs => (by cases hs), ?_⟩
    · intro st hst
      rcases List.mem_append.1 hst with hst | hst
      · exact h.bound st hst
      · cases List.mem_singleton.1 hst
        exact (List.getElem?_eq_some_iff.1 hc).1
    · exact (aimsOf_concat _ _ _ _ _).trans (by rw [if_neg hj, List.append_nil])
    · intro d hd
      refine hfollowed.domain d ?_
      rw [hphase]
      cases goal <;> exact hd
    · intro ip hip
      refine (hfollowed.target ip ?_).concat _
      rw [hphase]
      cases goal <;> exact hip
    · cases goal with
      | doh q =>
        refine ⟨doh ++ [.doh q.recordType q.addr], [], ?_, ?_, Nat.zero_le _, fun _ h => (by cases h), fun _ => rfl⟩
        · rw [List.append_nil]
          exact haims
        · rw [List.append_assoc]
          exact hsub
      | target ip =>
        refine ⟨doh, [.target ip], haims, hsub, Nat.le_refl _, fun aim haim => ?_, fun he => (by cases he)⟩
        cases List.mem_singleton.1 haim
        exact ⟨ip, rfl, (hfollowed.target ip (by rw [hphase]; rfl)).concat _⟩

private theorem Sound.exchanged {sides : Option (Writer IoError × Reader IoError)} (h : Sound es s)
    (hc : s.calls[i]? = some c)
    (hact : s.act i c (.exchanged sides) = some s') : Sound (es ++ [.act i (.exchanged sides)]) s' := by
  simp only [State.act] at hact
  split at hact
  case h_2 => cases hact
  rename_i goal k hphase
  have hfailed (e : Chain) : Follows c.phase (goal.failed c.port e) := goal.follows_failed (.inr hphase) _ _
  split at hact
  · cases hact
    exact h.quiet hc rfl ⟨rfl, rfl⟩ (.inr ⟨k, .released, rfl⟩) (hfailed _) (ne_storing_failed _ _ _)
  · split at hact
    · cases hact
      exact h.quiet hc rfl ⟨rfl, rfl⟩ (.inr ⟨k, .dropped, rfl⟩) (.ended rfl) fun _ _ _ _ hs => by cases hs
    · cases hact
      exact h.quiet hc rfl ⟨rfl, rfl⟩ (.inr ⟨k, .released, rfl⟩) (hfailed _) (ne_storing_failed _ _ _)
    · cases hact
      refine h.quiet hc rfl ⟨rfl, rfl⟩ (.inr ⟨k, .framed, rfl⟩) ?_ fun _ _ _ _ hs => ?_
      · rw [hphase]
        exact goal.follows_connected k _
      · cases goal <;> cases hs

private theorem Sound.answered {input : AskInput} (hrun : Machine.exec State.step .start es = some s) (h : Sound es s)
    (hc : s.calls[i]? = some c) (hact : s.act i c (.answered input) = some s') :
    Sound (es ++ [.act i (.answered input)]) s' := by
  simp only [State.act] at hact
  split at hact
  case h_2 => cases hact
  rename_i q k hphase
  split at hact
  · cases hact
    exact h.quiet hc rfl ⟨rfl, rfl⟩ (.inr ⟨k, .dropped, rfl⟩) (.ended rfl) fun _ _ _ _ hs => by cases hs
  · cases hact
    refine h.quiet hc rfl ⟨rfl, rfl⟩ (.inr ⟨k, .dropped, rfl⟩) ?_ (ne_storing_askNext _ _ _)
    rw [hphase]
    exact follows_askNext rfl (List.Sublist.refl _) rfl _
  · rename_i ip ttl hresolved
    cases hact
    refine h.move hc rfl h.cache (h.backed.concat _) h.bound (fun _ _ => rfl)
      ((h.calls i c hc).follow _ rfl ?_ fun d ip' ttl' k' hs => ?_)
    · rw [hphase]
      exact ⟨fun _ hd => hd, fun _ hip => (by cases hip), List.nil_sublist _, fun _ => rfl⟩
    · cases hs
      exact ⟨es, [], input, s, c, q, k, rfl, hrun, hc, hphase, rfl, hresolved⟩

private theorem Sound.storedAt {visit : Doh.Visit} {now : Nat} (h : Sound es s) (hc : s.calls[i]? = some c)
    (hact : s.act i c (.stored visit now) = some s') : Sound (es ++ [.act i (.stored visit now)]) s' := by
  simp only [State.act] at hact
  split at hact
  case h_2 => cases hact
  rename_i domain ip ttl k hphase
  cases hact
  have hfollowed := h.calls i c hc
  have hhost : c.host = .domain domain := hfollowed.domain domain (by rw [hphase]; rfl)
  have hanswered := (hfollowed.answered domain ip ttl k hphase).concat (.act i (.stored visit now))
  have hbound : ∀ st ∈ s.streams.modify k (fun st => { st with fate := .dropped }), st.call < s.calls.length := by
    intro st hst
    obtain ⟨st₀, hst₀, hcall⟩ := call_of_mem_modify hst
    exact hcall ▸ h.bound st₀ hst₀
  refine h.move hc rfl ?_ (fun visit' d ip' ttl' now' hmem => ?_) hbound (fun j _ => aimsOf_modify _ _ _ j)
    ⟨fun _ hd => (by cases hd), fun ip' hip => ?_, fun _ _ _ _ hs => (by cases hs), ?_⟩
  · refine Eq.trans ?_ (Doh.after_concat _ _).symm
    exact h.cache ▸ rfl
  · rcases List.mem_append.1 hmem with hmem | hmem
    · exact h.backed.concat _ visit' d ip' ttl' now' hmem
    · cases List.mem_singleton.1 hmem
      exact ⟨i, ttl, rfl, hanswered⟩
  · cases hip
    exact .inr ⟨domain, hhost, .inr ⟨ttl, hanswered⟩⟩
  · exact hfollowed.opened.keep _ (aimsOf_modify _ _ _ i) (List.nil_sublist _) fun _ => by rw [hphase]; rfl

private theorem Sound.ended {phase' : Phase} (h : Sound es s) (hc : s.calls[i]? = some c)
    (hphase' : phase'.running = false) :
    Sound (es ++ [e]) ((s.drop c.phase).move i phase') := by
  have hstoring (d : String) (ip : IpAddr) (ttl : UInt32) (k : Nat) : phase' ≠ .storing d ip ttl k := by
    rintro rfl
    cases hphase'
  unfold State.drop
  split
  · rename_i k _
    exact h.quiet hc rfl ⟨rfl, rfl⟩ (.inr ⟨k, .dropped, rfl⟩) (.ended hphase') hstoring
  · exact h.quiet hc rfl ⟨rfl, rfl⟩ (.inl rfl) (.ended hphase') hstoring

private theorem Sound.act (hrun : Machine.exec State.step .start es = some s) (h : Sound es s)
    (hc : s.calls[i]? = some c) (hact : s.act i c action = some s') : Sound (es ++ [.act i action]) s' := by
  cases action with
  | looked now => exact h.looked hrun hc hact
  | opened result => exact h.opened hc hact
  | exchanged sides => exact h.exchanged hc hact
  | answered input => exact h.answered hrun hc hact
  | stored visit now => exact h.storedAt hc hact
  | expired =>
    simp only [State.act, Option.ite_none_right_eq_some, Option.some.injEq] at hact
    obtain ⟨-, rfl⟩ := hact
    exact h.ended hc rfl
  | abandoned =>
    simp only [State.act, Option.ite_none_right_eq_some, Option.some.injEq] at hact
    obtain ⟨-, rfl⟩ := hact
    exact h.ended hc rfl

private theorem Sound.call (h : Sound es s) (host : Host) (port : UInt16)
    (hstep : s.step (.call host port) = some s') :
    Sound (es ++ [.call host port]) s' := by
  cases hstep
  refine ⟨h.cache, h.backed.concat _, fun st hst => ?_, fun j d hd => ?_⟩
  · rw [List.length_append]
    exact Nat.lt_add_right _ (h.bound st hst)
  · rw [List.getElem?_append] at hd
    split at hd
    · exact (h.calls j d hd).stay _ rfl
    · -- the new call has no streams yet
      rename_i hge
      obtain rfl := List.mem_singleton.1 (List.mem_of_getElem? hd)
      have hnone : aimsOf s.streams j = [] := by
        refine List.map_eq_nil_iff.2 (List.filter_eq_nil_iff.2 fun st hst => ?_)
        have := h.bound st hst
        simp only [decide_eq_true_eq]
        omega
      have hopened (phase : Phase) (hahead : phase.ahead = trail host) : Opened (es ++ [.call host port])
          ({ s with calls := s.calls ++ [⟨host, port, State.firstPhase host⟩] } : State session) j host phase :=
        ⟨[], [], hnone, by rw [hahead]; exact List.Sublist.refl _, Nat.zero_le _, fun _ h => (by cases h),
          fun _ => rfl⟩
      cases host with
      | domain name =>
        refine ⟨fun d hd => ?_, fun _ hip => (by cases hip), fun _ _ _ _ hs => (by cases hs), hopened _ rfl⟩
        cases hd
        rfl
      | ip addr =>
        refine ⟨fun _ hd => (by cases hd), fun ip hip => ?_, fun _ _ _ _ hs => (by cases hs), hopened _ rfl⟩
        cases hip
        exact .inl rfl

/-- The answer of an edge that accepts a request: HEADERS with status 200. -/
def accepting : Reader IoError := ⟨[0x01, 0x03, 0x00, 0x00, 0xd9], ⟨fun _ => 3, fun _ => by decide⟩, none⟩

end WarpSocks.Masque.Dial
