import Mathlib.Data.List.Sigma
import WarpSocks.Dns.Message
import WarpSocks.Host
import WarpSocks.Outbound.ConnectFirst

/-!
# Racing address families

`connect_tcp` of `outbound/ip.rs`.  For a name, the A and the AAAA addresses are resolved and dialled apart from
each other, each family with `connect_first`; the first family that connects is the result.  Each family goes its
own way (`came_update`): what it does depends on its own events only, so that a family that stalls does not hold
the other one up.  A connection is what the dial of an address that its family has resolved has returned, and an
error is the result only when the budget has passed, or when every address that either family has resolved was
dialled and has failed (`connectTcp_families`).
-/

namespace WarpSocks.Outbound

open Dns (RecordType)

variable {T : Type}

/-- Where the future of one family is. -/
inductive Family (T : Type) where
  | resolving
  /-- Addresses that wait for those of the other family. -/
  | delaying (addresses : List IpAddr)
  | racing (race : Race T)
  | finished (result : Except IoError (T × SocketAddr))

/-- What the future of one family meets. -/
inductive FamilyEvent (T : Type) where
  | resolved (result : Except Chain (List IpAddr))
  | delayed
  | signal (i : Nat) (signal : Signal T)

/-- The targets of a family. -/
def targetsOf (port : UInt16) (addresses : List IpAddr) : List SocketAddr := addresses.map (.new · port)

/-- A race that goes on, or its result. -/
def enter (race : Race T) : Family T :=
  match race.result with
  | some result => .finished result
  | none => .racing race

/-- The future of one family of `connect_tcp`.  Of an error of `resolve` only the outermost context is kept. -/
def familyStep (port : UInt16) (recordType : RecordType) : Family T → FamilyEvent T → Option (Family T)
  | .resolving, .resolved (.error e) => some (.finished (.error ⟨.other, e.headD ""⟩))
  | .resolving, .resolved (.ok addresses) =>
    if recordType = .a ∧ addresses ≠ [] then some (.delaying addresses)
    else some (enter (connectFirst (targetsOf port addresses)))
  | .delaying addresses, .delayed => some (enter (connectFirst (targetsOf port addresses)))
  | .racing race, .signal i signal => (step race (i, signal)).map enter
  | _, _ => none

/-- What `connect_tcp` waits for. -/
inductive Inner (T : Type) where
  | direct (target : SocketAddr)
  | families (name : String) (family : RecordType → Family T) (errors : List String)

/-- `connect_tcp` between two events, with the stream and the note of `Connected` once it has returned. -/
structure Dial (T : Type) where
  port : UInt16
  inner : Inner T
  result : Option (Except IoError (T × Option String))

inductive DialEvent (T : Type) where
  | dialed (result : Except IoError T)
  | family (recordType : RecordType) (event : FamilyEvent T)
  /-- The budget has passed. -/
  | expired

/-- The note of a connection. -/
def targetNote (target : SocketAddr) : Option String := some s!"target={SocketText.display target}"

def Family.isFinished : Family T → Bool
  | finished _ => true
  | _ => false

/-- The error when both families have failed. -/
def familiesFailed (name : String) (errors : List String) : IoError :=
  let joined := "; ".intercalate errors
  ⟨.notConnected, s!"域名 {name} 的所有地址族连接失败: {joined}"⟩

def budgetSpent : IoError := ⟨.timedOut, "DNS/目标连接总预算耗尽"⟩

namespace Dial

def start (host : Host) (port : UInt16) : Dial T :=
  match host with
  | .ip ip => ⟨port, .direct (.new ip port), none⟩
  | .domain name => ⟨port, .families name (fun _ => .resolving) [], none⟩

/-- `families.next()`, when the future of a family has gone on. -/
def settle (d : Dial T) (name : String) (family : RecordType → Family T) (errors : List String)
    (recordType : RecordType) (phase : Family T) : Dial T :=
  let family := Function.update family recordType phase
  match phase with
  | .finished (.ok (stream, target)) =>
    { d with inner := .families name family errors, result := some (.ok (stream, targetNote target)) }
  | .finished (.error e) =>
    let errors := errors ++ [e.msg]
    { d with
      inner := .families name family errors
      result :=
        if (family .a).isFinished && (family .aaaa).isFinished then some (.error (familiesFailed name errors))
        else none }
  | _ => { d with inner := .families name family errors }

def step (d : Dial T) (e : DialEvent T) : Option (Dial T) :=
  match d.result, d.inner, e with
  | none, _, .expired => some { d with result := some (.error budgetSpent) }
  | none, .direct target, .dialed result =>
    some { d with result := some (result.map fun stream => (stream, targetNote target)) }
  | none, .families name family errors, .family recordType e =>
    (familyStep d.port recordType (family recordType) e).map (d.settle name family errors recordType)
  | _, _, _ => none

end Dial

/-! ### One family -/

section Family

variable {port : UInt16} {recordType : RecordType} {phase phase' : Family T} {es : List (FamilyEvent T)}
    {e : FamilyEvent T}

/-- The signals for the race of a family. -/
def signalsOf (es : List (FamilyEvent T)) : List (Nat × Signal T) :=
  es.filterMap fun
    | .signal i signal => some (i, signal)
    | _ => none

private theorem signalsOf_signal (es : List (FamilyEvent T)) (i : Nat) (signal : Signal T) :
    signalsOf (es ++ [.signal i signal]) = signalsOf es ++ [(i, signal)] := by
  simp [signalsOf]

private theorem signalsOf_resolved (es : List (FamilyEvent T)) (result : Except Chain (List IpAddr)) :
    signalsOf (es ++ [.resolved result]) = signalsOf es := by
  simp [signalsOf]

private theorem signalsOf_delayed (es : List (FamilyEvent T)) : signalsOf (es ++ [.delayed]) = signalsOf es := by
  simp [signalsOf]

/-- The family has raced, for the addresses that it has resolved and with all its signals. -/
def Raced (port : UInt16) (es : List (FamilyEvent T)) (addresses : List IpAddr) (race : Race T) : Prop :=
  .resolved (.ok addresses) ∈ es ∧
    Machine.exec step (connectFirst (targetsOf port addresses)) (signalsOf es) = some race

/-- What a family has come to. -/
def Came (port : UInt16) (es : List (FamilyEvent T)) : Family T → Prop
  | .resolving => signalsOf es = []
  | .delaying addresses => .resolved (.ok addresses) ∈ es ∧ signalsOf es = []
  | .racing race => race.result = none ∧ ∃ addresses, Raced port es addresses race
  | .finished result =>
    (∃ e chain, result = .error e ∧ .resolved (.error chain) ∈ es) ∨
      ∃ addresses race, race.result = some result ∧ Raced port es addresses race

private theorem came_enter {addresses : List IpAddr} {race : Race T} (h : Raced port es addresses race) :
    Came port es (enter race) := by
  unfold enter
  cases hresult : race.result with
  | none => exact ⟨hresult, addresses, h⟩
  | some result => exact .inr ⟨addresses, race, hresult, h⟩

/-- The race begins behind the addresses. -/
private theorem raced_start {addresses : List IpAddr} (hmem : .resolved (.ok addresses) ∈ es)
    (hsignals : signalsOf es = []) :
    Raced port es addresses (connectFirst (targetsOf port addresses) : Race T) :=
  ⟨hmem, by rw [hsignals]; rfl⟩

private theorem came_step (h : Came port es phase) (hstep : familyStep port recordType phase e = some phase') :
    Came port (es ++ [e]) phase' := by
  unfold familyStep at hstep
  split at hstep
  · rename_i chain
    cases hstep
    exact .inl ⟨_, chain, rfl, by simp⟩
  · rename_i addresses
    have hmem : FamilyEvent.resolved (.ok addresses) ∈ es ++ [FamilyEvent.resolved (T := T) (.ok addresses)] := by
      simp
    have hsignals := (signalsOf_resolved es (.ok addresses)).trans h
    split at hstep
    · cases hstep
      exact ⟨hmem, hsignals⟩
    · cases hstep
      exact came_enter (raced_start hmem hsignals)
  · cases hstep
    exact came_enter (raced_start (List.mem_append_left _ h.1) ((signalsOf_delayed es).trans h.2))
  · rename_i race i signal
    obtain ⟨race', hrace', rfl⟩ := Option.map_eq_some_iff.1 hstep
    obtain ⟨-, addresses, hmem, hexec⟩ := h
    refine came_enter ⟨List.mem_append_left _ hmem, ?_⟩
    rw [signalsOf_signal]
    exact Machine.exec_concat.2 ⟨race, hexec, hrace'⟩
  · cases hstep

/-- A family that has not finished can go on. -/
private theorem exists_familyStep (h : Came port es phase) (hfinished : phase.isFinished = false) :
    ∃ e, (familyStep port recordType phase e).isSome = true := by
  cases phase with
  | resolving => exact ⟨.resolved (.error []), rfl⟩
  | delaying addresses => exact ⟨.delayed, rfl⟩
  | racing race =>
    obtain ⟨hnone, addresses, -, hexec⟩ := h
    have hpos := List.length_pos_iff.2 ((exec_consistent hexec).failed_of_none hnone).1
    obtain ⟨signal, hsome⟩ := exists_step hnone hpos
    refine ⟨.signal 0 signal, ?_⟩
    rw [familyStep, Option.isSome_map]
    exact hsome
  | finished => cases hfinished

/-- The family has resolved the address, and the attempt to dial it has returned the stream. -/
def Connects (port : UInt16) (es : List (FamilyEvent T)) (ip : IpAddr) (stream : T) : Prop :=
  ∃ addresses index, .resolved (.ok addresses) ∈ es ∧ ip ∈ addresses ∧
    Dialed (targetsOf port addresses) (signalsOf es) (.new ip port, index) (.ok stream)

/-- Nothing that the family has resolved can be reached: of its race there is one attempt for each address, and each
was dialled and has failed. -/
def Exhausted (port : UInt16) (es : List (FamilyEvent T)) : Prop :=
  (∃ chain, .resolved (.error chain) ∈ es) ∨
    ∃ (addresses : List IpAddr) (attempts : List (SocketAddr × Nat)), .resolved (.ok addresses) ∈ es ∧
      (attempts.map Prod.fst).Perm (targetsOf port addresses) ∧ attempts.Nodup ∧
      ∀ attempt ∈ attempts, ∃ error, Dialed (targetsOf port addresses) (signalsOf es) attempt (.error error)

private theorem exhausted_of_came {error : IoError} (h : Came port es (.finished (.error error))) :
    Exhausted port es := by
  rcases h with ⟨e, chain, -, hmem⟩ | ⟨addresses, race, hresult, hmem, hexec⟩
  · exact .inl ⟨chain, hmem⟩
  · obtain ⟨hperm, hfailed⟩ := (exec_consistent hexec).error_iff.1 ⟨error, hresult⟩
    let order := interleaveAddresses (targetsOf port addresses)
    refine .inr ⟨addresses, order.zipIdx, hmem, ?_, .of_map Prod.snd (List.nodup_zipIdx_map_snd order),
      fun attempt hattempt => ?_⟩
    · rw [List.zipIdx_map_fst]
      exact interleaveAddresses_perm _
    obtain ⟨⟨attempt, result⟩, hc, rfl⟩ := List.mem_map.1 (hperm.mem_iff.2 hattempt)
    have hdialed := dialed_of_completed hexec _ hc
    cases result with
    | ok stream => nomatch hfailed _ hc
    | error error => exact ⟨error, hdialed⟩

private theorem connects_of_came {stream : T} {target : SocketAddr}
    (h : Came port es (.finished (.ok (stream, target)))) :
    ∃ ip, target = .new ip port ∧ Connects port es ip stream := by
  rcases h with ⟨e, chain, heq, -⟩ | ⟨addresses, race, hresult, hmem, hexec⟩
  · cases heq
  · have hconsistent := exec_consistent hexec
    obtain ⟨index, hfind⟩ := hconsistent.find_of_ok hresult
    have hcompleted := List.mem_of_find?_eq_some hfind
    have hstarted : (target, index) ∈ race.attempts.started :=
      hconsistent.orderly.once.mem_iff.2 (List.mem_append_left _ (List.mem_map.2 ⟨_, hcompleted, rfl⟩))
    have hjob : (target, index) ∈ (interleaveAddresses (targetsOf port addresses)).zipIdx :=
      hconsistent.orderly.order ▸ List.mem_append_left _ hstarted
    have htarget : target ∈ targetsOf port addresses :=
      (interleaveAddresses_perm _).mem_iff.1 (List.fst_mem_of_mem_zipIdx hjob)
    obtain ⟨ip, hip, rfl⟩ := List.mem_map.1 htarget
    exact ⟨ip, rfl, addresses, index, hmem, hip, dialed_of_completed hexec _ hcompleted⟩

end Family

/-! ### Both families -/

section Both

variable {name : String} {port : UInt16} {d d' : Dial T} {es : List (DialEvent T)} {e : DialEvent T}

/-- The events of one family. -/
def familyEvents (recordType : RecordType) (es : List (DialEvent T)) : List (FamilyEvent T) :=
  es.filterMap fun
    | .family t e => if t = recordType then some e else none
    | _ => none

private theorem familyEvents_family (t recordType : RecordType) (es : List (DialEvent T)) (e : FamilyEvent T) :
    familyEvents t (es ++ [.family recordType e]) = familyEvents t es ++ if recordType = t then [e] else [] := by
  unfold familyEvents
  rw [List.filterMap_append]
  by_cases h : recordType = t
  · simp [h]
  · simp [h]

private theorem familyEvents_expired (t : RecordType) (es : List (DialEvent T)) :
    familyEvents t (es ++ [.expired]) = familyEvents t es := by
  simp [familyEvents]

/-- What is known while the families race. -/
structure Racing (name : String) (port : UInt16) (es : List (DialEvent T)) (family : RecordType → Family T)
    (result : Option (Except IoError (T × Option String))) : Prop where
  came : ∀ t, Came port (familyEvents t es) (family t)
  ok : ∀ stream note, result = some (.ok (stream, note)) → ∃ t target, family t = .finished (.ok (stream, target)) ∧
    note = targetNote target
  error : ∀ e, result = some (.error e) → e = budgetSpent ∧ .expired ∈ es ∨
    (∃ errors, e = familiesFailed name errors) ∧ ∀ t, ∃ error, family t = .finished (.error error)
  none : result = none → (∀ t x, family t ≠ .finished (.ok x)) ∧ ∃ t, (family t).isFinished = false

/-- A call for a name. -/
def Tracks (name : String) (port : UInt16) (es : List (DialEvent T)) (d : Dial T) : Prop :=
  d.port = port ∧ ∃ family errors, d.inner = .families name family errors ∧ Racing name port es family d.result

private theorem tracks_start (name : String) (port : UInt16) :
    Tracks name port [] (Dial.start (.domain name) port : Dial T) :=
  ⟨rfl, fun _ => .resolving, [], rfl, fun _ => rfl, fun _ _ h => (by cases h), fun _ h => (by cases h),
    fun _ => ⟨fun _ _ h => (by cases h), .a, rfl⟩⟩

/-- One family goes on by itself, and the other one stays where it is. -/
theorem came_update {family : RecordType → Family T} (h : ∀ t, Came port (familyEvents t es) (family t))
    {recordType : RecordType} {fe : FamilyEvent T} {phase : Family T}
    (hstep : familyStep port recordType (family recordType) fe = some phase) (t : RecordType) :
    Came port (familyEvents t (es ++ [.family recordType fe])) (Function.update family recordType phase t) := by
  rw [familyEvents_family]
  by_cases ht : recordType = t
  · subst ht
    rw [if_pos rfl, Function.update_self]
    exact came_step (h recordType) hstep
  · rw [if_neg ht, List.append_nil, Function.update_of_ne (Ne.symm ht)]
    exact h t

private theorem isFinished_both (family : RecordType → Family T) :
    ((family .a).isFinished && (family .aaaa).isFinished) = true ↔ ∀ t, (family t).isFinished = true := by
  rw [Bool.and_eq_true]
  constructor
  · rintro ⟨ha, haaaa⟩ t
    cases t with
    | a => exact ha
    | aaaa => exact haaaa
  · exact fun h => ⟨h .a, h .aaaa⟩

private theorem tracks_settle {family : RecordType → Family T} {errors : List String} (hport : d.port = port)
    (hnone : d.result = none) (h : Racing name port es family d.result) {recordType : RecordType} {fe : FamilyEvent T}
    {phase : Family T} (hstep : familyStep port recordType (family recordType) fe = some phase) :
    Tracks name port (es ++ [.family recordType fe]) (d.settle name family errors recordType phase) := by
  have hcame := came_update h.came hstep
  obtain ⟨hnotOk, -⟩ := h.none hnone
  have hnotOk' (hphase : ∀ x, phase ≠ .finished (.ok x)) (t : RecordType) (x : T × SocketAddr) :
      Function.update family recordType phase t ≠ .finished (.ok x) := by
    by_cases ht : t = recordType
    · subst ht
      rw [Function.update_self]
      exact hphase x
    · rw [Function.update_of_ne ht]
      exact hnotOk t x
  have hgoing (hphase : phase.isFinished = false) :
      Racing name port (es ++ [.family recordType fe]) (Function.update family recordType phase) d.result := by
    rw [hnone]
    refine ⟨hcame, fun _ _ h => (by cases h), fun _ h => (by cases h), fun _ => ⟨hnotOk' ?_, recordType, ?_⟩⟩
    · rintro x rfl
      cases hphase
    · rw [Function.update_self]
      exact hphase
  cases phase with
  | resolving => exact ⟨hport, _, _, rfl, hgoing rfl⟩
  | delaying addresses => exact ⟨hport, _, _, rfl, hgoing rfl⟩
  | racing race => exact ⟨hport, _, _, rfl, hgoing rfl⟩
  | finished result =>
    cases result with
    | ok x =>
      refine ⟨hport, _, _, rfl, hcame, fun stream note h => ?_, fun _ h => (by cases h), fun h => (by cases h)⟩
      cases h
      exact ⟨recordType, x.2, Function.update_self .., rfl⟩
    | error e =>
      have hnotOk' := hnotOk' fun x h => (by cases h)
      refine ⟨hport, _, _, rfl, hcame, fun stream note h => ?_, fun e h => ?_, fun h => ⟨hnotOk', ?_⟩⟩
      · simp only [Dial.settle] at h
        split at h <;> cases h
      · simp only [Dial.settle, Option.ite_none_right_eq_some] at h
        obtain ⟨hboth, heq⟩ := h
        cases heq
        refine .inr ⟨⟨_, rfl⟩, fun t => ?_⟩
        have hfinished := (isFinished_both _).1 hboth t
        cases hphase : Function.update family recordType (.finished (.error e)) t with
        | finished result =>
          cases result with
          | ok x => exact (hnotOk' t x hphase).elim
          | error error => exact ⟨error, rfl⟩
        | resolving | delaying | racing => rw [hphase] at hfinished; cases hfinished
      · simp only [Dial.settle] at h
        split at h
        · cases h
        · rename_i hboth
          rw [isFinished_both] at hboth
          simpa using hboth

private theorem Tracks.step (h : Tracks name port es d) (hstep : d.step e = some d') :
    Tracks name port (es ++ [e]) d' := by
  obtain ⟨hport, family, errors, hinner, hracing⟩ := h
  unfold Dial.step at hstep
  split at hstep
  · rename_i hnone
    cases hstep
    refine ⟨hport, family, errors, hinner, fun t => ?_, fun _ _ h => (by cases h), fun e h => ?_,
      fun h => (by cases h)⟩
    · rw [familyEvents_expired]
      exact hracing.came t
    · cases h
      exact .inl ⟨rfl, by simp⟩
  · rename_i hdirect
    rw [hdirect] at hinner
    cases hinner
  · rename_i hnone hfamilies
    rw [hfamilies] at hinner
    cases hinner
    obtain ⟨phase, hphase, rfl⟩ := Option.map_eq_some_iff.1 hstep
    exact tracks_settle hport hnone hracing (hport ▸ hphase)
  · cases hstep

end Both

/-- For every name, and in every order in which the resolver, the timers and the dials of the two families answer:
a connection is the stream that the dial of an address has returned which its family has resolved, and is noted
with that address; an error says that the budget has passed, or that each family has failed to resolve the name or
has dialled every address that it has resolved and each of these dials has failed; and as long as there is no
result no family has connected, and each one that has not finished can go on, whatever the other one waits for. -/
theorem connectTcp_families (T : Type) (name : String) (port : UInt16) (es : List (DialEvent T)) (d : Dial T)
    (h : Machine.exec Dial.step (.start (.domain name) port) es = some d) :
    (∀ stream note, d.result = some (.ok (stream, note)) →
      ∃ t ip, Connects port (familyEvents t es) ip stream ∧ note = targetNote (.new ip port)) ∧
    (∀ e, d.result = some (.error e) → e = budgetSpent ∧ .expired ∈ es ∨
      (∃ errors, e = familiesFailed name errors) ∧ ∀ t, Exhausted port (familyEvents t es)) ∧
    (d.result = none → ∃ family errors, d.inner = .families name family errors ∧
      (∀ t x, family t ≠ .finished (.ok x)) ∧ (∃ t, (family t).isFinished = false) ∧
      ∀ t, (family t).isFinished = false → ∃ e, (d.step (.family t e)).isSome = true) := by
  obtain ⟨hport, family, errors, hinner, hracing⟩ : Tracks name port es d :=
    Machine.exec_induction_events (fun _ _ _ _ h hstep => h.step hstep) (tracks_start name port) h
  refine ⟨fun stream note hok => ?_, fun e herror => ?_, fun hnone => ⟨family, errors, hinner, (hracing.none hnone).1,
    (hracing.none hnone).2, fun t ht => ?_⟩⟩
  · obtain ⟨t, target, hfamily, rfl⟩ := hracing.ok stream note hok
    have hcame := hracing.came t
    rw [hfamily] at hcame
    obtain ⟨ip, rfl, hconnects⟩ := connects_of_came hcame
    exact ⟨t, ip, hconnects, rfl⟩
  · rcases hracing.error e herror with hexpired | ⟨herrors, hall⟩
    · exact .inl hexpired
    · refine .inr ⟨herrors, fun t => ?_⟩
      obtain ⟨error, hfamily⟩ := hall t
      have hcame := hracing.came t
      rw [hfamily] at hcame
      exact exhausted_of_came hcame
  · obtain ⟨fe, hsome⟩ := exists_familyStep (hracing.came t) ht
    refine ⟨fe, ?_⟩
    rw [← hport] at hsome
    simp only [Dial.step, hnone, hinner, Option.isSome_map]
    exact hsome

/-- The A query fails, and the connection goes to an AAAA address. -/
theorem connectTcp_families_aaaa :
    let es : List (DialEvent Nat) :=
      [.family .aaaa (.resolved (.ok [.v6 ⟨List.replicate 16 1, rfl⟩])), .family .a (.resolved (.error ["timeout"])),
        .family .aaaa (.signal 0 (.dialed (.ok 7)))]
    ∃ d, Machine.exec Dial.step (.start (.domain "a.example") 443) es = some d ∧
      ∃ note, d.result = some (.ok (7, note)) ∧
        ∃ t ip, Connects 443 (familyEvents t es) ip 7 ∧ note = targetNote (.new ip 443) := by
  intro es
  let target : SocketAddr := .v6 ⟨List.replicate 16 1, rfl⟩ 443 0 0
  let race : Race Nat := awaitNext ⟨.new [(target, 0)], [], none⟩
  have hrace : connectFirst (targetsOf 443 [.v6 ⟨List.replicate 16 1, rfl⟩]) = race := by
    rw [connectFirst]
    change awaitNext ⟨.new (interleaveLoop [] [target] []).zipIdx, [], none⟩ = race
    rw [interleaveLoop, interleaveLoop]
    rfl
  let racing : Dial Nat :=
    ⟨443, .families "a.example" (Function.update (fun _ => .resolving) .aaaa (.racing race)) [], none⟩
  have hfirst : (Dial.start (.domain "a.example") 443 : Dial Nat).step
      (.family .aaaa (.resolved (.ok [.v6 ⟨List.replicate 16 1, rfl⟩]))) = some racing := by
    simp only [Dial.start, Dial.step, familyStep, hrace]
    rfl
  obtain ⟨d, hd⟩ := Option.isSome_iff_exists.1 (by rfl : (Machine.exec Dial.step racing es.tail).isSome = true)
  have hrun : Machine.exec Dial.step (.start (.domain "a.example") 443) es = some d :=
    Machine.exec_cons.2 ⟨racing, hfirst, hd⟩
  have hresult : d.result = some (.ok (7, targetNote target)) := by
    have : (Machine.exec Dial.step racing es.tail).map Dial.result = some (some (.ok (7, targetNote target))) := rfl
    rw [hd] at this
    exact Option.some.inj this
  exact ⟨d, hrun, _, hresult, (connectTcp_families Nat "a.example" 443 es d hrun).1 7 _ hresult⟩

end WarpSocks.Outbound
