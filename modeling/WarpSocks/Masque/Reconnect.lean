import WarpSocks.Machine.Tasks
import WarpSocks.Machine.Trace

/-!
# Reconnecting the MASQUE link

`Masque::open` between its await points, for any number of calls at once.  A connection has a number, by which the
model knows it, and a `stable_id`, by which the code knows it; the id of a new connection differs from those of
the connections that are still referenced, and from no others.  Each section that holds the lock on `link` has no
await in it and is one step.
-/

namespace WarpSocks.Masque.Reconnect

/-- Where a call of `open` waits, with the connections its variables hold. -/
inductive Phase where
  /-- For the lock on `link`, to clone its connection. -/
  | start
  /-- In `open_bi_bounded`. -/
  | opening (conn : Nat)
  /-- For the lock on `reconnecting`. -/
  | waiting (conn : Nat)
  /-- With that lock, for the lock on `link`, to compare the ids. -/
  | comparing (conn : Nat)
  /-- In `connect`. -/
  | dialing (conn : Nat)
  /-- For the lock on `link`, to replace its connection. -/
  | installing (conn fresh : Nat)
  /-- Without the lock on `reconnecting`, for the lock on `link`, to clone its connection again. -/
  | cloning (conn : Nat)
  /-- In the second `open_bi_bounded`. -/
  | reopening (conn again : Nat)
  /-- Returned or cancelled. -/
  | done
  deriving DecidableEq, Repr

/-- The connections a call keeps alive. -/
def Phase.conns : Phase → List Nat
  | .start | .done => []
  | .opening conn | .waiting conn | .comparing conn | .dialing conn | .cloning conn => [conn]
  | .installing conn fresh => [conn, fresh]
  | .reopening conn again => [conn, again]

/-- The call holds the lock on `reconnecting`. -/
def Phase.locked : Phase → Bool
  | .comparing _ | .dialing _ | .installing _ _ => true
  | _ => false

structure State where
  /-- The connection in `link`. -/
  link : Nat
  /-- The connections whose `close_reason` is set. -/
  closed : List Nat
  stableId : Nat → Nat
  /-- The number of the next connection. -/
  created : Nat
  /-- The call that holds the lock on `reconnecting`. -/
  reconnecting : Option Nat
  calls : List Phase

/-- The connections that are still referenced. -/
def State.referenced (s : State) : List Nat := s.link :: s.calls.flatMap Phase.conns

/-- What happens to a call at the await it waits in. -/
inductive Action where
  | lockLink
  /-- `open_bi` returns a stream, or fails or times out. -/
  | opened (ok : Bool)
  | lockReconnecting
  /-- The ids are compared; `prepared` says whether the credentials and the TLS configuration are there if
  needed. -/
  | compare (prepared : Bool)
  /-- `connect` returns a connection with this id, or fails. -/
  | dialed (stableId : Option Nat)
  | cancel
  deriving DecidableEq, Repr

inductive Event where
  | call
  | act (call : Nat) (action : Action)
  | close (conn : Nat)
  deriving DecidableEq, Repr

/-- The call returns or is dropped: what it holds is released. -/
def State.finish (s : State) (call : Nat) : State :=
  { s with
    calls := s.calls.set call .done
    reconnecting := if s.reconnecting = some call then none else s.reconnecting }

/-- The call goes on to its next await. -/
def State.move (s : State) (call : Nat) (phase : Phase) : State := { s with calls := s.calls.set call phase }

/-- The call has a new connection. -/
def State.dialed (s : State) (call conn stableId : Nat) : State :=
  { s with
    calls := s.calls.set call (.installing conn s.created)
    stableId := fun c => if c = s.created then stableId else s.stableId c
    created := s.created + 1 }

/-- The call replaces the connection in `link` and gives up the lock on `reconnecting`. -/
def State.install (s : State) (call conn fresh : Nat) : State :=
  { s with
    calls := s.calls.set call (.cloning conn)
    link := fresh
    reconnecting := none }

/-- A step of a call. -/
def act (s : State) (call : Nat) : Phase → Action → Option State
  | .done, _ => none
  | _, .cancel => some (s.finish call)
  | .start, .lockLink =>
    -- a closed connection is not tried
    some (s.move call (if s.link ∈ s.closed then .waiting s.link else .opening s.link))
  | .opening _, .opened true => some (s.finish call)
  | .opening conn, .opened false =>
    -- an error of a connection that is still open is returned
    if conn ∈ s.closed then some (s.move call (.waiting conn)) else some (s.finish call)
  | .waiting conn, .lockReconnecting =>
    if s.reconnecting = none then some { s.move call (.comparing conn) with reconnecting := some call } else none
  | .comparing conn, .compare prepared =>
    if s.stableId s.link = s.stableId conn then
      if prepared then some (s.move call (.dialing conn)) else some (s.finish call)
    else some { s.move call (.cloning conn) with reconnecting := none }
  | .dialing _, .dialed none => some (s.finish call)
  | .dialing conn, .dialed (some stableId) =>
    if ∀ c ∈ s.referenced, s.stableId c ≠ stableId then
      some (s.dialed call conn stableId)
    else none
  | .installing conn fresh, .lockLink => some (s.install call conn fresh)
  | .cloning conn, .lockLink => some (s.move call (.reopening conn s.link))
  | .reopening _ _, .opened _ => some (s.finish call)
  | _, _ => none

def step (s : State) : Event → Option State
  | .call => some { s with calls := s.calls ++ [.start] }
  | .act call action => s.calls[call]?.bind fun phase => act s call phase action
  | .close conn => some { s with closed := conn :: s.closed }

/-- `Masque::new`: one connection, open and in `link`. -/
def initial (stableId : Nat) : State := ⟨0, [], fun _ => stableId, 1, none, []⟩

/-- What a step of a call can be. -/
inductive Acts (s : State) (i : Nat) : Phase → Action → State → Prop where
  | finish {phase : Phase} {action : Action} (hphase : phase ≠ .done) : Acts s i phase action (s.finish i)
  | snapshot : Acts s i .start .lockLink (s.move i (if s.link ∈ s.closed then .waiting s.link else .opening s.link))
  | closed {conn : Nat} (hclosed : conn ∈ s.closed) : Acts s i (.opening conn) (.opened false)
    (s.move i (.waiting conn))
  | lock {conn : Nat} (hfree : s.reconnecting = none) : Acts s i (.waiting conn) .lockReconnecting
      { s.move i (.comparing conn) with reconnecting := some i }
  | same {conn : Nat} (hid : s.stableId s.link = s.stableId conn) :
      Acts s i (.comparing conn) (.compare true) (s.move i (.dialing conn))
  | differs {conn : Nat} {prepared : Bool} : Acts s i (.comparing conn) (.compare prepared)
      { s.move i (.cloning conn) with reconnecting := none }
  | dialed {conn stableId : Nat} (hfresh : ∀ c ∈ s.referenced, s.stableId c ≠ stableId) :
      Acts s i (.dialing conn) (.dialed (some stableId)) (s.dialed i conn stableId)
  | install {conn fresh : Nat} : Acts s i (.installing conn fresh) .lockLink (s.install i conn fresh)
  | clone {conn : Nat} : Acts s i (.cloning conn) .lockLink (s.move i (.reopening conn s.link))

private theorem acts_of_act {s s' : State} {i : Nat} {phase : Phase} {action : Action}
    (h : act s i phase action = some s') :
    Acts s i phase action s' := by
  unfold act at h
  split at h
  all_goals grind [Acts]

/-- The snapshot of a call that is past its first `open_bi`, up to the end of the reconnect. -/
def Phase.stale : Phase → Option Nat
  | .waiting conn | .comparing conn | .dialing conn | .installing conn _ => some conn
  | _ => none

/-- The snapshot of a call that is about to replace it. -/
def Phase.replacing : Phase → Option Nat
  | .dialing conn | .installing conn _ => some conn
  | _ => none

/-- The invariant. -/
structure Inv (s : State) : Prop where
  bound : ∀ c ∈ s.referenced, c < s.created
  ids : ∀ c ∈ s.referenced, ∀ d ∈ s.referenced, s.stableId c = s.stableId d → c = d
  lock : ∀ (i : Nat) (phase : Phase), s.calls[i]? = some phase → phase.locked → s.reconnecting = some i
  /-- Who waits for a reconnect has seen its connection closed. -/
  stale : ∀ (i : Nat) (phase : Phase), s.calls[i]? = some phase → ∀ conn, phase.stale = some conn → conn ∈ s.closed
  /-- What is about to be replaced is what `link` holds … -/
  current : ∀ (i : Nat) (phase : Phase), s.calls[i]? = some phase → ∀ conn, phase.replacing = some conn →
    s.link = conn
  /-- … and its replacement is newer. -/
  newer : ∀ (i conn fresh : Nat), s.calls[i]? = some (Phase.installing conn fresh) → s.link < fresh

private theorem mem_referenced {s : State} {c : Nat} :
    c ∈ s.referenced ↔ c = s.link ∨ ∃ (i : Nat) (phase : Phase), s.calls[i]? = some phase ∧ c ∈ phase.conns := by
  rw [State.referenced, List.mem_cons, List.mem_flatMap]
  constructor
  · rintro (h | ⟨phase, hmem, hc⟩)
    · exact .inl h
    · obtain ⟨i, hi⟩ := List.mem_iff_getElem?.1 hmem
      exact .inr ⟨i, phase, hi, hc⟩
  · rintro (h | ⟨i, phase, hi, hc⟩)
    · exact .inl h
    · exact .inr ⟨phase, List.mem_iff_getElem?.2 ⟨i, hi⟩, hc⟩

private theorem Phase.locked_of_replacing {phase : Phase} {conn : Nat} (h : phase.replacing = some conn) :
    phase.locked := by
  cases phase <;> first | rfl | nomatch h

namespace Inv

variable {s s' : State} {i : Nat} {phase : Phase}

/-- References only come from phases. -/
private theorem referenced_set (hcalls : s'.calls = s.calls.set i phase) (hlink : s'.link ∈ s.referenced) {c : Nat}
    (hc : c ∈ s'.referenced) : c ∈ s.referenced ∨ c ∈ phase.conns := by
  rcases mem_referenced.1 hc with rfl | ⟨j, φ, hj, hφ⟩
  · exact .inl hlink
  · rw [hcalls] at hj
    rcases Machine.getElem?_set_cases hj with ⟨-, rfl⟩ | ⟨-, hj⟩
    · exact .inr hφ
    · exact .inl (mem_referenced.2 (.inr ⟨j, φ, hj, hφ⟩))

/-- A call that goes on without touching `link`. -/
private theorem update (h : Inv s) (hcalls : s'.calls = s.calls.set i phase) (hlink : s'.link = s.link)
    (hclosed : s'.closed = s.closed) (hid : s'.stableId = s.stableId) (hcreated : s'.created = s.created)
    (hconns : ∀ c ∈ phase.conns, c ∈ s.referenced) (hlock : phase.locked → s'.reconnecting = some i)
    (hothers : ∀ j, j ≠ i → s.reconnecting = some j → s'.reconnecting = some j)
    (hstale : ∀ conn, phase.stale = some conn → conn ∈ s.closed)
    (hcurrent : ∀ conn, phase.replacing = some conn → s.link = conn)
    (hnew : ∀ conn fresh, phase ≠ .installing conn fresh) : Inv s' := by
  have href : ∀ c ∈ s'.referenced, c ∈ s.referenced := by
    intro c hc
    rcases referenced_set hcalls (by rw [hlink]; exact mem_referenced.2 (.inl rfl)) hc with hc | hc
    · exact hc
    · exact hconns c hc
  refine ⟨?_, ?_, ?_, ?_, ?_, ?_⟩
  · intro c hc
    rw [hcreated]
    exact h.bound c (href c hc)
  · intro c hc d hd hcd
    rw [hid] at hcd
    exact h.ids c (href c hc) d (href d hd) hcd
  · intro j φ hj hφ
    rw [hcalls] at hj
    rcases Machine.getElem?_set_cases hj with ⟨rfl, rfl⟩ | ⟨hne, hj⟩
    · exact hlock hφ
    · exact hothers j hne (h.lock j φ hj hφ)
  · intro j φ hj conn hconn
    rw [hcalls] at hj
    rw [hclosed]
    rcases Machine.getElem?_set_cases hj with ⟨-, rfl⟩ | ⟨-, hj⟩
    · exact hstale conn hconn
    · exact h.stale j φ hj conn hconn
  · intro j φ hj conn hconn
    rw [hcalls] at hj
    rw [hlink]
    rcases Machine.getElem?_set_cases hj with ⟨-, rfl⟩ | ⟨-, hj⟩
    · exact hcurrent conn hconn
    · exact h.current j φ hj conn hconn
  · intro j conn fresh hj
    rw [hcalls] at hj
    rw [hlink]
    rcases Machine.getElem?_set_cases hj with ⟨-, hφ⟩ | ⟨-, hj⟩
    · exact absurd hφ.symm (hnew conn fresh)
    · exact h.newer j conn fresh hj

private theorem finish (h : Inv s) (i : Nat) : Inv (s.finish i) := by
  refine h.update rfl rfl rfl rfl rfl (by simp [Phase.conns]) (by simp [Phase.locked]) ?_ (by simp [Phase.stale])
    (by simp [Phase.replacing]) (by simp)
  intro j hj hr
  have hne : s.reconnecting ≠ some i := by
    rw [hr]
    exact fun he => hj (Option.some.inj he)
  rw [State.finish, if_neg hne, hr]

/-- A new connection, whose id no referenced one has. -/
private theorem dialed (h : Inv s) {conn stableId : Nat} (hi : s.calls[i]? = some (.dialing conn))
    (hfresh : ∀ c ∈ s.referenced, s.stableId c ≠ stableId) :
    Inv (s.dialed i conn stableId) := by
  have hlink : s.link ∈ s.referenced := mem_referenced.2 (.inl rfl)
  have hconn : conn ∈ s.referenced := mem_referenced.2 (.inr ⟨i, _, hi, List.mem_singleton.2 rfl⟩)
  -- what is referenced afterwards was referenced before, or is the new connection
  have href : ∀ c ∈ (s.dialed i conn stableId).referenced, c ∈ s.referenced ∨ c = s.created := by
    intro c hc
    rcases referenced_set (show (s.dialed i conn stableId).calls = _ from rfl) hlink hc with hc | hc
    · exact .inl hc
    · simp only [Phase.conns, List.mem_cons, List.not_mem_nil, or_false] at hc
      rcases hc with rfl | rfl
      · exact .inl hconn
      · exact .inr rfl
  refine ⟨?_, ?_, ?_, ?_, ?_, ?_⟩
  · intro c hc
    rcases href c hc with hc | rfl
    · exact Nat.lt_succ_of_lt (h.bound c hc)
    · exact Nat.lt_succ_self _
  · intro c hc d hd hcd
    simp only [State.dialed] at hcd
    rcases href c hc with hc | rfl
    · have hc' : c ≠ s.created := Nat.ne_of_lt (h.bound c hc)
      rw [if_neg hc'] at hcd
      rcases href d hd with hd | rfl
      · rw [if_neg (Nat.ne_of_lt (h.bound d hd))] at hcd
        exact h.ids c hc d hd hcd
      · rw [if_pos rfl] at hcd
        exact absurd hcd (hfresh c hc)
    · rw [if_pos rfl] at hcd
      rcases href d hd with hd | rfl
      · rw [if_neg (Nat.ne_of_lt (h.bound d hd))] at hcd
        exact absurd hcd.symm (hfresh d hd)
      · rfl
  · intro j φ hj hφ
    rcases Machine.getElem?_set_cases hj with ⟨rfl, rfl⟩ | ⟨-, hj⟩
    · exact h.lock j _ hi rfl
    · exact h.lock j φ hj hφ
  · intro j φ hj c hc
    rcases Machine.getElem?_set_cases hj with ⟨rfl, rfl⟩ | ⟨-, hj⟩
    · exact h.stale j _ hi c hc
    · exact h.stale j φ hj c hc
  · intro j φ hj c hc
    rcases Machine.getElem?_set_cases hj with ⟨rfl, rfl⟩ | ⟨-, hj⟩
    · exact h.current j _ hi c hc
    · exact h.current j φ hj c hc
  · intro j c fresh hj
    rcases Machine.getElem?_set_cases hj with ⟨-, hφ⟩ | ⟨-, hj⟩
    · cases hφ
      exact h.bound _ hlink
    · exact h.newer j c fresh hj

/-- The replacement: only this call holds the lock, so no other one is about to replace anything. -/
private theorem install (h : Inv s) {conn fresh : Nat} (hi : s.calls[i]? = some (.installing conn fresh)) :
    Inv (s.install i conn fresh) := by
  have hheld : s.reconnecting = some i := h.lock i _ hi rfl
  have hmem : ∀ c ∈ [conn, fresh], c ∈ s.referenced := fun c hc => mem_referenced.2 (.inr ⟨i, _, hi, hc⟩)
  have href : ∀ c ∈ (s.install i conn fresh).referenced, c ∈ s.referenced := by
    intro c hc
    rcases referenced_set (s := s) rfl (hmem fresh (by simp)) hc with hc | hc
    · exact hc
    · exact hmem c (by simp only [Phase.conns, List.mem_singleton] at hc; simp [hc])
  -- another call with the lock would be this one
  have hother : ∀ (j : Nat) (φ : Phase), (s.calls.set i (.cloning conn))[j]? = some φ → φ.locked = false := by
    intro j φ hj
    rcases Machine.getElem?_set_cases hj with ⟨-, rfl⟩ | ⟨hne, hj⟩
    · rfl
    · rw [Bool.eq_false_iff]
      intro hφ
      have hj := h.lock j φ hj hφ
      rw [hheld] at hj
      exact hne (Option.some.inj hj).symm
  refine ⟨fun c hc => h.bound c (href c hc), fun c hc d hd => h.ids c (href c hc) d (href d hd), ?_, ?_, ?_, ?_⟩
  · intro j φ hj hφ
    rw [hother j φ hj] at hφ
    nomatch hφ
  · intro j φ hj c hc
    rcases Machine.getElem?_set_cases hj with ⟨-, rfl⟩ | ⟨-, hj⟩
    · nomatch hc
    · exact h.stale j φ hj c hc
  · intro j φ hj c hc
    have hφ := Phase.locked_of_replacing hc
    rw [hother j φ hj] at hφ
    nomatch hφ
  · intro j c fresh' hj
    nomatch hother j _ hj

private theorem act (h : Inv s) (hi : s.calls[i]? = some phase) {action : Action}
    (hact : Reconnect.act s i phase action = some s') : Inv s' := by
  have hlink : s.link ∈ s.referenced := mem_referenced.2 (.inl rfl)
  have hmem : ∀ c ∈ phase.conns, c ∈ s.referenced := fun c hc => mem_referenced.2 (.inr ⟨i, _, hi, hc⟩)
  cases acts_of_act hact with
  | finish hphase => exact h.finish i
  | snapshot =>
    by_cases hc : s.link ∈ s.closed
    · rw [if_pos hc]
      exact h.update rfl rfl rfl rfl rfl (by simp [Phase.conns, hlink]) (by simp [Phase.locked]) (fun _ _ hr => hr)
        (by simp [Phase.stale, hc]) (by simp [Phase.replacing]) (by simp)
    · rw [if_neg hc]
      exact h.update rfl rfl rfl rfl rfl (by simp [Phase.conns, hlink]) (by simp [Phase.locked]) (fun _ _ hr => hr)
        (by simp [Phase.stale]) (by simp [Phase.replacing]) (by simp)
  | closed hclosed =>
    exact h.update rfl rfl rfl rfl rfl hmem (by simp [Phase.locked]) (fun _ _ hr => hr)
      (by simp [Phase.stale, hclosed]) (by simp [Phase.replacing]) (by simp)
  | lock hfree =>
    refine h.update rfl rfl rfl rfl rfl hmem (fun _ => rfl) ?_ (fun c hc => h.stale i _ hi c hc)
      (by simp [Phase.replacing]) (by simp)
    intro j _ hr
    rw [hfree] at hr
    nomatch hr
  | @same conn hid =>
    -- equal ids of two referenced connections: it is the connection in `link`
    have heq : s.link = conn := h.ids _ hlink _ (hmem conn (List.mem_singleton.2 rfl)) hid
    exact h.update rfl rfl rfl rfl rfl hmem (fun _ => h.lock i _ hi rfl) (fun _ _ hr => hr)
      (fun c hc => h.stale i _ hi c hc) (by simp [Phase.replacing, heq]) (by simp)
  | differs =>
    refine h.update rfl rfl rfl rfl rfl hmem (by simp [Phase.locked]) ?_ (by simp [Phase.stale])
      (by simp [Phase.replacing]) (by simp)
    intro j hj hr
    rw [h.lock i _ hi rfl] at hr
    exact absurd (Option.some.inj hr).symm hj
  | dialed hfresh => exact h.dialed hi hfresh
  | install => exact h.install hi
  | @clone conn =>
    exact h.update rfl rfl rfl rfl rfl (by simpa [Phase.conns, hlink] using hmem conn (List.mem_singleton.2 rfl))
      (by simp [Phase.locked]) (fun _ _ hr => hr) (by simp [Phase.stale]) (by simp [Phase.replacing]) (by simp)

/-- A new call refers to nothing. -/
private theorem call (h : Inv s) : Inv { s with calls := s.calls ++ [.start] } := by
  have hold : ∀ (j : Nat) (φ : Phase), (s.calls ++ [.start])[j]? = some φ → φ = .start ∨ s.calls[j]? = some φ := by
    intro j φ hj
    rcases Machine.getElem?_concat_cases hj with ⟨-, hφ⟩ | hj
    · exact .inl hφ
    · exact .inr hj
  have href : ∀ c ∈ State.referenced { s with calls := s.calls ++ [.start] }, c ∈ s.referenced := by
    intro c hc
    rcases mem_referenced.1 hc with rfl | ⟨j, φ, hj, hφ⟩
    · exact mem_referenced.2 (.inl rfl)
    · rcases hold j φ hj with rfl | hj
      · nomatch hφ
      · exact mem_referenced.2 (.inr ⟨j, φ, hj, hφ⟩)
  refine ⟨fun c hc => h.bound c (href c hc), fun c hc d hd => h.ids c (href c hc) d (href d hd), ?_, ?_, ?_, ?_⟩
  · intro j φ hj hφ
    rcases hold j φ hj with rfl | hj
    · nomatch hφ
    · exact h.lock j φ hj hφ
  · intro j φ hj c hc
    rcases hold j φ hj with rfl | hj
    · nomatch hc
    · exact h.stale j φ hj c hc
  · intro j φ hj c hc
    rcases hold j φ hj with rfl | hj
    · nomatch hc
    · exact h.current j φ hj c hc
  · intro j c fresh hj
    rcases hold j _ hj with hφ | hj
    · nomatch hφ
    · exact h.newer j c fresh hj

private theorem step (h : Inv s) {e : Event} (hstep : Reconnect.step s e = some s') : Inv s' := by
  cases e with
  | call =>
    cases hstep
    exact h.call
  | act call action =>
    obtain ⟨phase, hi, hact⟩ := Option.bind_eq_some_iff.1 hstep
    exact h.act hi hact
  | close conn =>
    cases hstep
    exact ⟨h.bound, h.ids, h.lock, fun i φ hi c hc => List.mem_cons_of_mem _ (h.stale i φ hi c hc), h.current,
      h.newer⟩

private theorem initial (stableId : Nat) : Inv (Reconnect.initial stableId) := by
  have hzero : ∀ c ∈ (Reconnect.initial stableId).referenced, c = 0 := by
    intro c hc
    rcases mem_referenced.1 hc with rfl | ⟨i, φ, hi, -⟩
    · rfl
    · nomatch hi
  refine ⟨?_, ?_, fun i φ hi => (nomatch hi), fun i φ hi => (nomatch hi), fun i φ hi => (nomatch hi),
    fun i c f hi => (nomatch hi)⟩
  · intro c hc
    rw [hzero c hc]
    exact Nat.zero_lt_one
  · intro c hc d hd _
    rw [hzero c hc, hzero d hd]

end Inv

/-- Only a call that installs its connection changes `link`; the old one is closed and the new one newer. -/
private theorem step_link {s s' : State} (h : Inv s) {e : Event} (hstep : step s e = some s') :
    s'.link = s.link ∨ s.link ∈ s.closed ∧ s.link < s'.link ∧
      ∃ i conn fresh, e = .act i .lockLink ∧ s.calls[i]? = some (.installing conn fresh) ∧
        s'.calls[i]? = some (.cloning conn) := by
  cases e with
  | call =>
    cases hstep
    exact .inl rfl
  | close conn =>
    cases hstep
    exact .inl rfl
  | act i action =>
    obtain ⟨phase, hi, hact⟩ := Option.bind_eq_some_iff.1 hstep
    cases acts_of_act hact with
    | @install conn fresh =>
      right
      refine ⟨?_, h.newer i conn fresh hi, i, conn, fresh, rfl, hi, ?_⟩
      · rw [h.current i _ hi conn rfl]
        exact h.stale i _ hi conn rfl
      · have hlt : i < s.calls.length := (List.getElem?_eq_some_iff.1 hi).1
        exact List.getElem?_set_self hlt
    | _ => exact .inl rfl

/-- The number of the connection in `link` never decreases. -/
private theorem exec_link_le {s t : State} (h : Inv s) {es : List Event} (hexec : Machine.exec step s es = some t) :
    s.link ≤ t.link := by
  have hinv : Inv t ∧ s.link ≤ t.link := by
    refine Machine.exec_induction (P := fun u => Inv u ∧ s.link ≤ u.link) ?_ ⟨h, Nat.le_refl _⟩ hexec
    rintro u e u' ⟨hu, hle⟩ hstep
    refine ⟨hu.step hstep, ?_⟩
    rcases step_link hu hstep with heq | ⟨-, hlt, -⟩
    · rw [heq]
      exact hle
    · omega
  exact hinv.2

/-- A call that is past the reconnect, or has returned. -/
def Phase.settled : Phase → Bool
  | .cloning _ | .reopening _ _ | .done => true
  | _ => false

def Settled (s : State) (call : Nat) : Prop := ∃ phase, s.calls[call]? = some phase ∧ phase.settled

/-- A step of a call ends in the phase that the step sets. -/
private theorem settled_set {s : State} {i : Nat} {phase φ : Phase} (hi : s.calls[i]? = some phase) (hφ : φ.settled) :
    ∃ φ', (s.calls.set i φ)[i]? = some φ' ∧ φ'.settled :=
  ⟨φ, List.getElem?_set_self (List.getElem?_eq_some_iff.1 hi).1, hφ⟩

/-- A step of a call sets the phase of this call only. -/
private theorem calls_of_act {s s' : State} {i : Nat} {phase : Phase} {action : Action}
    (hact : act s i phase action = some s') :
    ∃ φ, s'.calls = s.calls.set i φ ∧ (phase.settled → φ.settled) := by
  cases acts_of_act hact with
  | finish hphase => exact ⟨_, rfl, fun _ => rfl⟩
  | clone => exact ⟨_, rfl, fun _ => rfl⟩
  | _ => exact ⟨_, rfl, fun h => nomatch h⟩

private theorem Settled.act {s s' : State} {i j : Nat} {phase : Phase} {action : Action} (h : Settled s i)
    (hj : s.calls[j]? = some phase) (hact : Reconnect.act s j phase action = some s') : Settled s' i := by
  obtain ⟨φ, hi, hφ⟩ := h
  obtain ⟨φ', hcalls, hset⟩ := calls_of_act hact
  by_cases hij : j = i
  · subst hij
    rw [hi] at hj
    cases hj
    exact ⟨φ', by rw [hcalls]; exact List.getElem?_set_self (List.getElem?_eq_some_iff.1 hi).1, hset hφ⟩
  · exact ⟨φ, by rw [hcalls, List.getElem?_set_ne hij]; exact hi, hφ⟩

private theorem Settled.step {s s' : State} {i : Nat} {e : Event} (h : Settled s i)
    (hstep : Reconnect.step s e = some s') :
    Settled s' i := by
  cases e with
  | call =>
    cases hstep
    obtain ⟨φ, hi, hφ⟩ := h
    refine ⟨φ, ?_, hφ⟩
    exact (List.getElem?_append_left (List.getElem?_eq_some_iff.1 hi).1).trans hi
  | close conn =>
    cases hstep
    exact h
  | act j action =>
    obtain ⟨phase, hj, hact⟩ := Option.bind_eq_some_iff.1 hstep
    exact h.act hj hact

/-- The credentials or the TLS configuration are not there, or no connection could be made. -/
def Fails (e : Event) (call : Nat) : Prop := e = .act call (.compare false) ∨ e = .act call (.dialed none)

/-- A failure comes before the call is settled, and settles it. -/
private theorem step_fails {s s' : State} {e : Event} {call : Nat} (hf : Fails e call) (hstep : step s e = some s') :
    ¬Settled s call ∧ Settled s' call := by
  have hunsettled : ∀ phase : Phase, s.calls[call]? = some phase → phase.settled = false → ¬Settled s call := by
    rintro phase hi hφ ⟨φ, hi', hφ'⟩
    rw [hi] at hi'
    cases hi'
    rw [hφ] at hφ'
    nomatch hφ'
  rcases hf with rfl | rfl
  · obtain ⟨phase, hi, hact⟩ := Option.bind_eq_some_iff.1 hstep
    cases phase with
    | comparing conn =>
      refine ⟨hunsettled _ hi rfl, ?_⟩
      simp only [act, Bool.false_eq_true, ↓reduceIte] at hact
      split at hact <;> cases hact <;> exact settled_set hi rfl
    | _ => simp [act] at hact
  · obtain ⟨phase, hi, hact⟩ := Option.bind_eq_some_iff.1 hstep
    cases phase with
    | dialing conn =>
      refine ⟨hunsettled _ hi rfl, ?_⟩
      simp only [act] at hact
      cases hact
      exact settled_set hi rfl
    | _ => simp [act] at hact

/-- A run in which a call fails: no step of that call changes `link`. -/
private theorem link_of_fails {s t t' : State} {es₁ es₂ : List Event} {e f : Event} {call : Nat} (h : Inv s)
    (hes₁ : Machine.exec step s es₁ = some t) (he : step t e = some t')
    (hes₂ : ∃ u, Machine.exec step t' es₂ = some u) (hcall : ∃ action, e = .act call action)
    (hf : Fails f call) (hmem : f ∈ es₁ ++ e :: es₂) : t'.link = t.link := by
  have ht : Inv t := Machine.exec_induction (fun _ _ _ hs hstep => hs.step hstep) h hes₁
  rcases step_link ht he with heq | ⟨-, -, i, conn, fresh, rfl, hi, hi'⟩
  · exact heq
  · exfalso
    obtain ⟨action, haction⟩ := hcall
    cases haction
    rcases List.mem_append.1 hmem with hmem | hmem
    · -- the call has failed before, so it does not install
      obtain ⟨as, bs, rfl⟩ := List.append_of_mem hmem
      obtain ⟨u, -, hrest⟩ := Machine.exec_append.1 hes₁
      obtain ⟨u', hu, hbs⟩ := Machine.exec_cons.1 hrest
      obtain ⟨φ, hφ, hsettled⟩ := Machine.exec_induction (P := fun u => Settled u call)
        (fun _ _ _ hs hstep => hs.step hstep) (step_fails hf hu).2 hbs
      rw [hi] at hφ
      cases hφ
      nomatch hsettled
    · rcases List.mem_cons.1 hmem with rfl | hmem
      · rcases hf with hf | hf <;> cases hf
      · -- the call is past the reconnect, so it does not fail
        obtain ⟨as, bs, rfl⟩ := List.append_of_mem hmem
        obtain ⟨w, hes₂⟩ := hes₂
        obtain ⟨u, has, hrest⟩ := Machine.exec_append.1 hes₂
        obtain ⟨u', hu, -⟩ := Machine.exec_cons.1 hrest
        have hsettled : Settled u call := Machine.exec_induction (P := fun u => Settled u call)
          (fun _ _ _ hs hstep => hs.step hstep) ⟨_, hi', rfl⟩ has
        exact (step_fails hf hu).1 hsettled

/-- In every run: what is replaced in `link` is a closed connection; no connection is replaced twice; no two calls
dial at once; and the steps of a call that fails leave `link` as it is. -/
theorem reconnect_single_flight {stableId : Nat} {es : List Event} {s : State}
    (h : Machine.exec step (initial stableId) es = some s) :
    (∀ e s', step s e = some s' → s'.link ≠ s.link → s.link ∈ s.closed) ∧
    (∀ e s₁ fs t f t', step s e = some s₁ → s₁.link ≠ s.link → Machine.exec step s₁ fs = some t →
      step t f = some t' → t'.link ≠ t.link → t.link ≠ s.link) ∧
    (∀ i j c d : Nat, s.calls[i]? = some (.dialing c) → s.calls[j]? = some (.dialing d) → i = j) ∧
    ∀ es₁ call action es₂ f t t', es = es₁ ++ .act call action :: es₂ →
      Machine.exec step (initial stableId) es₁ = some t → step t (.act call action) = some t' →
      Fails f call → f ∈ es → t'.link = t.link := by
  have hs : Inv s := Machine.exec_induction (fun _ _ _ hs hstep => hs.step hstep) (Inv.initial stableId) h
  refine ⟨?_, ?_, ?_, ?_⟩
  · intro e s' hstep hne
    rcases step_link hs hstep with heq | ⟨hclosed, -⟩
    · exact absurd heq hne
    · exact hclosed
  · intro e s₁ fs t f t' he hne hfs _ _
    rcases step_link hs he with heq | ⟨-, hlt, -⟩
    · exact absurd heq hne
    · have hle := exec_link_le (hs.step he) hfs
      omega
  · intro i j c d hi hj
    have hi := hs.lock i _ hi rfl
    have hj := hs.lock j _ hj rfl
    rw [hi] at hj
    exact Option.some.inj hj
  · rintro es₁ call action es₂ f t t' rfl hes₁ he hf hmem
    obtain ⟨u, hu, hrest⟩ := Machine.exec_append.1 h
    rw [hes₁] at hu
    cases hu
    obtain ⟨u', hu', hes₂⟩ := Machine.exec_cons.1 hrest
    rw [he] at hu'
    cases hu'
    exact link_of_fails (Inv.initial stableId) hes₁ he ⟨s, hes₂⟩ ⟨action, rfl⟩ hf hmem

/-- Two calls meet a closed connection; the first one replaces it, and the second one finds the new one. -/
theorem reconnect_single_flight_two :
    let es : List Event := [.call, .call, .close 0, .act 0 .lockLink, .act 1 .lockLink, .act 0 .lockReconnecting,
      .act 0 (.compare true), .act 0 (.dialed (some 8)), .act 0 .lockLink, .act 1 .lockReconnecting,
      .act 1 (.compare true)]
    ∃ s, Machine.exec step (initial 7) es = some s ∧ s.link = 1 ∧ s.calls = [.cloning 0, .cloning 0] ∧
      ∀ i j c d : Nat, s.calls[i]? = some (.dialing c) → s.calls[j]? = some (.dialing d) → i = j := by
  intro es
  refine ⟨_, rfl, rfl, rfl, ?_⟩
  exact (@reconnect_single_flight 7 es _ rfl).2.2.1

end WarpSocks.Masque.Reconnect
