import WarpSocks.Dataplane
import WarpSocks.Machine.Tasks
import WarpSocks.Machine.Trace
import WarpSocks.Sync.Tally

/-!
# The windows of the data plane

The counters of `DataPlaneObserver`, which any number of threads add to, and the reporter, which loads them one by
one every few seconds and shows what each has grown by.  Each atomic access is a step of its own, and they come in
any order.  All accesses are relaxed: the additions to one counter have one order, and a load of the reporter sees
some of the first of them, never fewer than an earlier load.  The peaks are read and reset by one access.

No addition is lost and none is shown twice (`report_windows_exact`), as long as the counters do not overflow.
-/

namespace WarpSocks.Dataplane

/-! ### The counters and the accesses to them -/

/-- The counters in `CounterSnapshot`. -/
inductive Counter where
  | outerRxPackets | outerRxBytes | outerTxPackets | outerTxBytes | outerTxDropped | deviceTxDropped
  | decapDone | decapWriteNetwork | decapV4 | decapV6 | decapErrors
  | plainPackets (direction : Direction) | plainBytes (direction : Direction)
  | tcpPackets (direction : Direction) | tcpPayloadBytes (direction : Direction)
  | tcpAckPackets (direction : Direction) | tcpAckOnlyPackets (direction : Direction)
  | reactorLoops | reactorWakeCalls | reactorWaits | reactorDeviceWakes | reactorNotifyWakes | reactorTimerWakes
  | reactorPolls
  deriving DecidableEq

/-- The counters in the order in which `snapshot` loads them. -/
def Counter.all : List Counter :=
  [outerRxPackets, outerRxBytes, outerTxPackets, outerTxBytes, outerTxDropped, deviceTxDropped,
    decapDone, decapWriteNetwork, decapV4, decapV6, decapErrors,
    plainPackets .rx, plainBytes .rx, plainPackets .tx, plainBytes .tx,
    tcpPackets .rx, tcpPayloadBytes .rx, tcpAckPackets .rx, tcpAckOnlyPackets .rx,
    tcpPackets .tx, tcpPayloadBytes .tx, tcpAckPackets .tx, tcpAckOnlyPackets .tx,
    reactorLoops, reactorWakeCalls, reactorWaits, reactorDeviceWakes, reactorNotifyWakes, reactorTimerWakes,
      reactorPolls]

/-- The queues whose length is recorded. -/
inductive Backlog where
  | outer
  | deviceRx
  | deviceTx
  deriving DecidableEq

/-- The values of which the greatest is kept. -/
inductive Peak where
  | maxGap
  | backlog (b : Backlog)
  deriving DecidableEq

/-- The peaks in the order in which `report_window` resets them. -/
def Peak.all : List Peak := [maxGap, backlog .outer, backlog .deviceRx, backlog .deviceTx]

/-- One atomic access. -/
inductive Op where
  /-- `add`. -/
  | add (c : Counter) (value : Nat)
  /-- The first access of `set_current_and_peak`. -/
  | store (b : Backlog) (value : Nat)
  /-- `update_peak`. -/
  | raise (p : Peak) (value : Nat)
  /-- The `swap` of `record_reactor_loop`. -/
  | progress (nowMs : Nat)

/-- `DecapOutcome`. -/
inductive DecapOutcome where
  | done
  | writeToNetwork
  | writeToTunnelV4
  | writeToTunnelV6
  | error
  deriving DecidableEq

/-- `ReactorWake`. -/
inductive ReactorWake where
  | device
  | notify
  | timer
  deriving DecidableEq

/-- What `TcpDirectionCounters::record` counts of a packet. -/
structure Segment where
  payloadLen : Nat
  ack : Bool
  syn : Bool
  fin : Bool
  rst : Bool
  deriving DecidableEq

/-- The calls of the observer. -/
inductive Record where
  | outerRx (bytes : Nat)
  | outerTx (bytes : Nat)
  | outerTxDropped
  | deviceTxDropped (packets : Nat)
  | decap (outcome : DecapOutcome)
  /-- With what `tcp_packet` has made of the packet. -/
  | plaintext (direction : Direction) (packet : List UInt8) (segment : Option Segment)
  | outerBacklog (current : Nat)
  | deviceBacklog (rx tx : Nat)
  | reactorWakeCall
  | reactorWait
  | reactorWake (wake : ReactorWake)
  | reactorPoll
  | reactorLoop (nowMs : Nat)

/-- `set_current_and_peak`. -/
def setCurrentAndPeak (b : Backlog) (value : Nat) : List Op := [.store b value, .raise (.backlog b) value]

/-- `TcpDirectionCounters::record`, as far as it counts. -/
def Segment.ops (direction : Direction) (s : Segment) : List Op :=
  [.add (.tcpPackets direction) 1, .add (.tcpPayloadBytes direction) s.payloadLen] ++
    if s.ack then
      .add (.tcpAckPackets direction) 1 ::
        if s.payloadLen == 0 && !s.syn && !s.fin && !s.rst then [.add (.tcpAckOnlyPackets direction) 1] else []
    else []

/-- The counter of `record_decap`. -/
def DecapOutcome.counter : DecapOutcome → Counter
  | done => .decapDone
  | writeToNetwork => .decapWriteNetwork
  | writeToTunnelV4 => .decapV4
  | writeToTunnelV6 => .decapV6
  | error => .decapErrors

/-- The counter of `record_reactor_wake`. -/
def ReactorWake.counter : ReactorWake → Counter
  | device => .reactorDeviceWakes
  | notify => .reactorNotifyWakes
  | timer => .reactorTimerWakes

/-- The accesses of a call, in their order. -/
def Record.ops : Record → List Op
  | outerRx bytes => [.add .outerRxPackets 1, .add .outerRxBytes bytes]
  | outerTx bytes => [.add .outerTxPackets 1, .add .outerTxBytes bytes]
  | outerTxDropped => [.add .outerTxDropped 1]
  | deviceTxDropped packets => [.add .deviceTxDropped packets]
  | decap outcome => [.add outcome.counter 1]
  | plaintext direction packet segment =>
    [.add (.plainPackets direction) 1, .add (.plainBytes direction) packet.length] ++
      match segment with
      | some s => s.ops direction
      | none => []
  | outerBacklog current => setCurrentAndPeak .outer current
  | deviceBacklog rx tx => setCurrentAndPeak .deviceRx rx ++ setCurrentAndPeak .deviceTx tx
  | reactorWakeCall => [.add .reactorWakeCalls 1]
  | reactorWait => [.add .reactorWaits 1]
  | reactorWake wake => [.add wake.counter 1]
  | reactorPoll => [.add .reactorPolls 1]
  | reactorLoop nowMs => [.add .reactorLoops 1, .progress nowMs]

/-! ### The system -/

/-- What a window shows. -/
structure Window where
  delta : Counter → Nat
  peak : Peak → Nat

/-- Where `report_window` is. -/
inductive Reporter where
  | idle
  /-- In `snapshot`, with the counters left to be loaded. -/
  | loading (left : List Counter) (snapshot : Counter → Nat)
  /-- In the arguments of the report, with the peaks left to be reset. -/
  | swapping (left : List Peak) (delta : Counter → Nat) (peak : Peak → Nat)

structure State where
  /-- The additions to a counter, in their order. -/
  adds : Counter → List Nat
  current : Backlog → Nat
  peak : Peak → Nat
  /-- The values a peak was raised to, in their order. -/
  raised : Peak → List Nat
  lastProgressMs : Nat
  /-- The calls that have begun, with the accesses they have still to make. -/
  threads : List (List Op)
  /-- How many additions to a counter the reporter has seen. -/
  seen : Counter → Nat
  /-- `ReportState::counters`. -/
  previous : Counter → Nat
  reporter : Reporter
  windows : List Window

namespace State

def start : State :=
  ⟨fun _ => [], fun _ => 0, fun _ => 0, fun _ => [], 0, [], fun _ => 0, fun _ => 0, .idle, []⟩

/-- What a counter holds after these additions. -/
def value (adds : List Nat) : Nat := adds.sum % UInt64.size

inductive Event where
  /-- A call begins. -/
  | record (r : Record)
  /-- A call makes its next access. -/
  | act (i : Nat)
  /-- `report_window` is called. -/
  | report
  /-- The reporter loads the next counter and sees its first `n` additions. -/
  | load (n : Nat)
  /-- The reporter resets the next peak. -/
  | swap

/-- The rest of a call behind an access. -/
def rest (s : State) : Op → List Op → List Op
  | .progress nowMs, ops =>
    if 0 < s.lastProgressMs then .raise .maxGap (nowMs - s.lastProgressMs) :: ops else ops
  | _, ops => ops

/-- An access. -/
def access (s : State) : Op → State
  | .add c v => { s with adds := Function.update s.adds c (s.adds c ++ [v]) }
  | .store b v => { s with current := Function.update s.current b v }
  | .raise p v =>
    { s with
      peak := Function.update s.peak p (max (s.peak p) v)
      raised := Function.update s.raised p (s.raised p ++ [v]) }
  | .progress nowMs => { s with lastProgressMs := nowMs }

/-- `CounterSnapshot::delta`. -/
def delta (current previous : Counter → Nat) : Counter → Nat := fun c => current c - previous c

/-- The reporter has loaded a counter. -/
def loaded (s : State) (c : Counter) (n : Nat) (left : List Counter) (snapshot : Counter → Nat) : State :=
  let snapshot := Function.update snapshot c (value ((s.adds c).take n))
  let s := { s with seen := Function.update s.seen c n }
  match left with
  | [] => { s with reporter := .swapping Peak.all (delta snapshot s.previous) fun _ => 0, previous := snapshot }
  | left => { s with reporter := .loading left snapshot }

/-- The reporter has reset a peak. -/
def swapped (s : State) (p : Peak) (left : List Peak) (delta : Counter → Nat) (peak : Peak → Nat) : State :=
  let peak := Function.update peak p (s.peak p)
  let s := { s with peak := Function.update s.peak p 0 }
  match left with
  | [] => { s with reporter := .idle, windows := s.windows ++ [⟨delta, peak⟩] }
  | left => { s with reporter := .swapping left delta peak }

def step (s : State) : Event → Option State
  | .record r => some { s with threads := s.threads ++ [r.ops] }
  | .act i =>
    match s.threads[i]? with
    | some (op :: ops) => some { s.access op with threads := s.threads.set i (s.rest op ops) }
    | _ => none
  | .report =>
    match s.reporter with
    | .idle => some { s with reporter := .loading Counter.all fun _ => 0 }
    | _ => none
  | .load n =>
    match s.reporter with
    | .loading (c :: left) snapshot =>
      if s.seen c ≤ n ∧ n ≤ (s.adds c).length then some (s.loaded c n left snapshot) else none
    | _ => none
  | .swap =>
    match s.reporter with
    | .swapping (p :: left) delta peak => some (s.swapped p left delta peak)
    | _ => none

variable {s s' : State} {e : Event} {es : List Event}

/-! ### What was recorded, and what is under way -/

/-- What an access adds to a counter. -/
def addsTo (c : Counter) : Op → List Nat
  | .add c' v => if c' = c then [v] else []
  | _ => []

/-- The length of a queue that an access raises the peak to. -/
def raisesTo (b : Backlog) : Op → List Nat
  | .raise (.backlog b') v => if b' = b then [v] else []
  | _ => []

def Event.ops : Event → List Op
  | record r => r.ops
  | act _ | report | load _ | swap => []

/-- What all calls so far are about. -/
def recorded (g : Op → List Nat) (es : List Event) : List Nat := (es.flatMap Event.ops).flatMap g

/-- What the calls have still to do. -/
def pending (g : Op → List Nat) (s : State) : List Nat := s.threads.flatMap fun ops => ops.flatMap g

private theorem recorded_concat (g : Op → List Nat) (es : List Event) (e : Event) :
    recorded g (es ++ [e]) = recorded g es ++ e.ops.flatMap g := by
  simp [recorded]

/-- A call that begins has everything before it, and an access takes one thing from what is under way. -/
private theorem pending_step {g : Op → List Nat} (hgap : ∀ v, g (.raise .maxGap v) = []) (h : s.step e = some s') :
    (∃ i op, e = .act i ∧ (pending g s).Perm (g op ++ pending g s') ∧
        ∃ threads, s' = { s.access op with threads }) ∨
      (∀ i, e ≠ .act i) ∧ pending g s' = pending g s ++ e.ops.flatMap g ∧ s'.adds = s.adds ∧
      s'.raised = s.raised := by
  cases e with
  | record r =>
    cases h
    exact .inr ⟨fun _ h => (by cases h), by simp [pending, Event.ops], rfl, rfl⟩
  | act i =>
    simp only [step] at h
    split at h
    · rename_i op ops hi
      cases h
      refine .inl ⟨i, op, rfl, Machine.flatMap_set_perm hi ?_, _, rfl⟩
      rw [List.flatMap_cons]
      congr 1
      unfold rest
      split
      · split
        · rw [List.flatMap_cons, hgap, List.nil_append]
        · rfl
      · rfl
    · cases h
  | report =>
    simp only [step] at h
    split at h
    · cases h
      exact .inr ⟨fun _ h => (by cases h), (List.append_nil _).symm, rfl, rfl⟩
    · cases h
  | load n =>
    simp only [step] at h
    split at h
    · split at h
      · cases h
        refine .inr ⟨fun _ h => (by cases h), ?_⟩
        unfold loaded
        split <;> exact ⟨(List.append_nil _).symm, rfl, rfl⟩
      · cases h
    · cases h
  | swap =>
    simp only [step] at h
    split at h
    · cases h
      refine .inr ⟨fun _ h => (by cases h), ?_⟩
      unfold swapped
      split <;> exact ⟨(List.append_nil _).symm, rfl, rfl⟩
    · cases h

private theorem access_adds (s : State) (op : Op) (c : Counter) : (s.access op).adds c = s.adds c ++ addsTo c op := by
  cases op with
  | add c' v =>
    show Function.update s.adds c' (s.adds c' ++ [v]) c = s.adds c ++ if c' = c then [v] else []
    by_cases hc : c' = c
    · subst hc
      rw [Function.update_self, if_pos rfl]
    · rw [Function.update_of_ne (fun h => hc h.symm), if_neg hc, List.append_nil]
  | store b v => exact (List.append_nil _).symm
  | raise p v => exact (List.append_nil _).symm
  | progress nowMs => exact (List.append_nil _).symm

private theorem access_raised (s : State) (op : Op) (b : Backlog) :
    (s.access op).raised (.backlog b) = s.raised (.backlog b) ++ raisesTo b op := by
  cases op with
  | add c v => exact (List.append_nil _).symm
  | store b v => exact (List.append_nil _).symm
  | raise p v =>
    show Function.update s.raised p (s.raised p ++ [v]) (.backlog b) = _
    cases p with
    | maxGap =>
      rw [Function.update_of_ne (fun h => by cases h)]
      exact (List.append_nil _).symm
    | backlog b' =>
      show _ = s.raised (.backlog b) ++ if b' = b then [v] else []
      by_cases hb : b' = b
      · subst hb
        rw [Function.update_self, if_pos rfl]
      · rw [Function.update_of_ne (fun h => hb (Peak.backlog.inj h).symm), if_neg hb, List.append_nil]
  | progress nowMs => exact (List.append_nil _).symm

/-- Everything that was recorded was done or is under way. -/
private theorem done_perm {g : Op → List Nat} {D : State → List Nat} (hgap : ∀ v, g (.raise .maxGap v) = [])
    (hstart : D start = []) (haccess : ∀ s op threads, D { access s op with threads } = D s ++ g op)
    (hframe : ∀ s s' : State, s'.adds = s.adds → s'.raised = s.raised → D s' = D s)
    (h : Machine.exec step start es = some s) : (D s ++ pending g s).Perm (recorded g es) := by
  refine Machine.exec_induction_events (P := fun es s => (D s ++ pending g s).Perm (recorded g es))
    (fun es s e s' hs hstep => ?_) ?_ h
  · rw [recorded_concat]
    rcases pending_step hgap hstep with ⟨i, op, rfl, hperm, threads, rfl⟩ | ⟨-, hpending, hadds, hraised⟩
    · rw [haccess, List.append_assoc]
      exact ((hperm.symm.append_left (D s)).trans hs).trans (List.Perm.of_eq (List.append_nil _).symm)
    · rw [hframe s s' hadds hraised, hpending, ← List.append_assoc]
      exact hs.append_right _
  · rw [hstart]
    exact List.Perm.refl _

private theorem adds_perm (h : Machine.exec step start es = some s) (c : Counter) :
    (s.adds c ++ pending (addsTo c) s).Perm (recorded (addsTo c) es) :=
  done_perm (D := fun s => s.adds c) (fun _ => rfl) rfl (fun s op _ => access_adds s op c)
    (fun _ _ hadds _ => congrFun hadds c) h

private theorem raised_perm (h : Machine.exec step start es = some s) (b : Backlog) :
    (s.raised (.backlog b) ++ pending (raisesTo b) s).Perm (recorded (raisesTo b) es) :=
  done_perm (D := fun s => s.raised (.backlog b)) (fun _ => rfl) rfl (fun s op _ => access_raised s op b)
    (fun _ _ _ hraised => congrFun hraised _) h

/-- No counter overflows. -/
def Fits (es : List Event) : Prop := ∀ c, (recorded (addsTo c) es).sum < UInt64.size

private theorem value_take (h : Machine.exec step start es = some s) (hfit : Fits es) (c : Counter) (n : Nat) :
    value ((s.adds c).take n) = ((s.adds c).take n).sum := by
  refine Nat.mod_eq_of_lt (Nat.lt_of_le_of_lt ?_ (hfit c))
  have hsum := (adds_perm h c).sum_eq
  rw [List.sum_append] at hsum
  have := Sync.sum_take_le (s.adds c) n
  omega

private theorem Fits.of_concat (h : Fits (es ++ [e])) : Fits es := by
  intro c
  have := h c
  rw [recorded_concat, List.sum_append] at this
  omega

/-! ### The reporter -/

/-- What was shown of a counter, or will be in the report under way. -/
def shownDeltas (s : State) (c : Counter) : List Nat :=
  s.windows.map (fun w => w.delta c) ++
    match s.reporter with
    | .swapping _ delta _ => [delta c]
    | _ => []

/-- What was shown of a peak, or will be in the report under way. -/
def shownPeaks (s : State) (p : Peak) : List Nat :=
  s.windows.map (fun w => w.peak p) ++
    match s.reporter with
    | .swapping left _ peak => if p ∈ left then [] else [peak p]
    | _ => []

structure Sound (s : State) : Prop where
  seen : ∀ c, s.seen c ≤ (s.adds c).length
  counters : ∀ c, ∃ cut, cut ≤ s.seen c ∧ s.previous c = ((s.adds c).take cut).sum ∧
    Sync.Cut List.sum (s.adds c) (s.shownDeltas c) cut
  /-- The counters that are loaded have the value that the reporter has seen. -/
  loading : ∀ left snapshot, s.reporter = .loading left snapshot → ∀ c, c ∉ left →
    snapshot c = ((s.adds c).take (s.seen c)).sum
  peaks : ∀ p, ∃ cut, cut ≤ (s.raised p).length ∧ s.peak p = Sync.maxOf ((s.raised p).drop cut) ∧
    Sync.Cut Sync.maxOf (s.raised p) (s.shownPeaks p) cut
  swapping : ∀ left delta peak, s.reporter = .swapping left delta peak → left.Nodup

private theorem sound_start : Sound start :=
  ⟨fun _ => Nat.le_refl _, fun _ => ⟨0, Nat.le_refl _, rfl, Sync.cut_nil⟩, fun _ _ h => (by cases h),
    fun _ => ⟨0, Nat.le_refl _, rfl, Sync.cut_nil⟩, fun _ _ _ h => (by cases h)⟩

private theorem Sound.threads (h : Sound s) (threads : List (List Op)) : Sound { s with threads } :=
  ⟨h.seen, h.counters, h.loading, h.peaks, h.swapping⟩

private theorem Sound.add (h : Sound s) (c : Counter) (v : Nat) : Sound (s.access (.add c v)) := by
  have hadds := fun k => access_adds s (.add c v) k
  have htake : ∀ k n, n ≤ (s.adds k).length → ((s.access (.add c v)).adds k).take n = (s.adds k).take n := by
    intro k n hn
    rw [hadds, List.take_append_of_le_length hn]
  have hlen : ∀ k, (s.adds k).length ≤ ((s.access (.add c v)).adds k).length := by
    intro k
    rw [hadds, List.length_append]
    omega
  refine ⟨fun k => (h.seen k).trans (hlen k), fun k => ?_, fun left snapshot hr k hk => ?_, h.peaks, h.swapping⟩
  · obtain ⟨cut, hle, hprevious, hcut⟩ := h.counters k
    refine ⟨cut, hle, ?_, ?_⟩
    · rw [htake k cut (hle.trans (h.seen k))]
      exact hprevious
    · by_cases hk : c = k
      · subst hk
        rw [show (s.access (.add c v)).adds c = s.adds c ++ [v] from Function.update_self _ _ _]
        exact hcut.push (hle.trans (h.seen c)) v
      · rw [show (s.access (.add c v)).adds k = s.adds k from Function.update_of_ne (fun h => hk h.symm) _ _]
        exact hcut
  · show snapshot k = (((s.access (.add c v)).adds k).take (s.seen k)).sum
    rw [htake k _ (h.seen k)]
    exact h.loading left snapshot hr k hk

private theorem Sound.raise (h : Sound s) (p : Peak) (v : Nat) : Sound (s.access (.raise p v)) := by
  refine ⟨h.seen, h.counters, h.loading, fun q => ?_, h.swapping⟩
  obtain ⟨cut, hle, hpeak, hcut⟩ := h.peaks q
  by_cases hq : q = p
  · subst hq
    have hraised : (s.access (.raise q v)).raised q = s.raised q ++ [v] := Function.update_self _ _ _
    have hmax : (s.access (.raise q v)).peak q = max (s.peak q) v := Function.update_self _ _ _
    rw [hraised, hmax]
    refine ⟨cut, ?_, ?_, hcut.push hle v⟩
    · rw [List.length_append]
      omega
    · rw [List.drop_append_of_le_length hle, Sync.maxOf_concat, hpeak]
  · rw [show (s.access (.raise p v)).raised q = s.raised q from Function.update_of_ne hq _ _,
      show (s.access (.raise p v)).peak q = s.peak q from Function.update_of_ne hq _ _]
    exact ⟨cut, hle, hpeak, hcut⟩

private theorem Sound.access (h : Sound s) (op : Op) : Sound (s.access op) := by
  cases op with
  | add c v => exact h.add c v
  | store b v => exact ⟨h.seen, h.counters, h.loading, h.peaks, h.swapping⟩
  | raise p v => exact h.raise p v
  | progress nowMs => exact ⟨h.seen, h.counters, h.loading, h.peaks, h.swapping⟩

private theorem mem_all (c : Counter) : c ∈ Counter.all := by
  cases c <;> first | decide | (rename_i direction; cases direction <;> decide)

private theorem Sound.report (h : Sound s) (hidle : s.reporter = .idle) :
    Sound { s with reporter := .loading Counter.all fun _ => 0 } := by
  refine ⟨h.seen, fun c => ?_, fun left snapshot hr c hc => ?_, fun p => ?_, fun _ _ _ hr => (by cases hr)⟩
  · have hc := h.counters c
    unfold shownDeltas at hc
    rw [hidle] at hc
    exact hc
  · cases hr
    exact (hc (mem_all c)).elim
  · have hp := h.peaks p
    unfold shownPeaks at hp
    rw [hidle] at hp
    exact hp

/-- The next counter is loaded, and it is not the last one. -/
private theorem Sound.load (h : Sound s) {c : Counter} {n : Nat} {left : List Counter} {snapshot : Counter → Nat}
    (hr : s.reporter = .loading (c :: left) snapshot) (hn : s.seen c ≤ n ∧ n ≤ (s.adds c).length)
    (hvalue : value ((s.adds c).take n) = ((s.adds c).take n).sum) :
    (∀ k, s.seen k ≤ Function.update s.seen c n k ∧ Function.update s.seen c n k ≤ (s.adds k).length) ∧
    ∀ k, k ∉ left → Function.update snapshot c (value ((s.adds c).take n)) k =
      ((s.adds k).take (Function.update s.seen c n k)).sum := by
  refine ⟨fun k => ?_, fun k hk => ?_⟩
  · by_cases hkc : k = c
    · subst hkc
      rw [Function.update_self]
      exact hn
    · rw [Function.update_of_ne hkc]
      exact ⟨Nat.le_refl _, h.seen k⟩
  · by_cases hkc : k = c
    · subst hkc
      rw [Function.update_self, Function.update_self, hvalue]
    · rw [Function.update_of_ne hkc, Function.update_of_ne hkc]
      refine h.loading (c :: left) snapshot hr k fun hmem => ?_
      rcases List.mem_cons.1 hmem with he | he
      · exact hkc he
      · exact hk he

private theorem Sound.loaded (h : Sound s) {c : Counter} {n : Nat} {left : List Counter} {snapshot : Counter → Nat}
    (hr : s.reporter = .loading (c :: left) snapshot) (hn : s.seen c ≤ n ∧ n ≤ (s.adds c).length)
    (hvalue : value ((s.adds c).take n) = ((s.adds c).take n).sum) : Sound (s.loaded c n left snapshot) := by
  obtain ⟨hseen, hsnapshot⟩ := h.load hr hn hvalue
  have hdeltas : ∀ k, s.shownDeltas k = s.windows.map (fun w => w.delta k) ++ [] := by
    intro k
    unfold shownDeltas
    rw [hr]
  have hpeaks : ∀ p, s.shownPeaks p = s.windows.map (fun w => w.peak p) ++ [] := by
    intro p
    unfold shownPeaks
    rw [hr]
  unfold State.loaded
  split
  · -- the last counter: the differences to the last report are those of the values seen
    refine ⟨fun k => (hseen k).2, fun k => ?_, fun _ _ hr => (by cases hr), fun p => ?_, fun _ _ _ hr => ?_⟩
    · obtain ⟨cut, hle, hprevious, hcut⟩ := h.counters k
      have hle' := hle.trans (hseen k).1
      refine ⟨_, Nat.le_refl _, hsnapshot k List.not_mem_nil, ?_⟩
      have hadvance := hcut.advance hle'
      rw [← Sync.sum_take_sub hle', ← hprevious, ← hsnapshot k List.not_mem_nil, hdeltas k,
        List.append_nil] at hadvance
      exact hadvance
    · have := h.peaks p
      rw [hpeaks p] at this
      have hmem : p ∈ Peak.all := by
        cases p with
        | maxGap => decide
        | backlog b => cases b <;> decide
      have hshown : ∀ delta, shownPeaks { s with
            seen := Function.update s.seen c n, reporter := .swapping Peak.all delta fun _ => 0
            previous := Function.update snapshot c (value ((s.adds c).take n)) } p =
          s.windows.map (fun w => w.peak p) ++ [] := by
        intro delta
        unfold shownPeaks
        dsimp only
        rw [if_pos hmem]
      dsimp only
      rw [hshown]
      exact this
    · cases hr
      decide
  · refine ⟨fun k => (hseen k).2, fun k => ?_, fun left' snapshot' hr' k hk => ?_, fun p => ?_,
      fun _ _ _ hr => (by cases hr)⟩
    · obtain ⟨cut, hle, hprevious, hcut⟩ := h.counters k
      rw [hdeltas k] at hcut
      exact ⟨cut, hle.trans (hseen k).1, hprevious, hcut⟩
    · cases hr'
      exact hsnapshot k hk
    · have := h.peaks p
      rw [hpeaks p] at this
      exact this

private theorem Sound.swapped (h : Sound s) {p : Peak} {left : List Peak} {delta : Counter → Nat} {peak : Peak → Nat}
    (hr : s.reporter = .swapping (p :: left) delta peak) : Sound (s.swapped p left delta peak) := by
  have hnodup := List.nodup_cons.1 (h.swapping _ _ _ hr)
  have hdeltas : ∀ k, s.shownDeltas k = s.windows.map (fun w => w.delta k) ++ [delta k] := by
    intro k
    unfold shownDeltas
    rw [hr]
  -- what is shown of the peaks now
  have hpeaks : ∀ q, ∃ cut, cut ≤ (s.raised q).length ∧
      Function.update s.peak p 0 q = Sync.maxOf ((s.raised q).drop cut) ∧
      Sync.Cut Sync.maxOf (s.raised q) (s.windows.map (fun w => w.peak q) ++
        if q ∈ left then [] else [Function.update peak p (s.peak p) q]) cut := by
    intro q
    obtain ⟨cut, hle, hpeak, hcut⟩ := h.peaks q
    unfold shownPeaks at hcut
    rw [hr] at hcut
    dsimp only at hcut
    by_cases hq : q = p
    · subst hq
      rw [if_pos List.mem_cons_self, List.append_nil] at hcut
      rw [if_neg hnodup.1, Function.update_self, Function.update_self, hpeak]
      have hadvance := hcut.advance hle
      rw [List.take_length] at hadvance
      refine ⟨_, Nat.le_refl _, ?_, hadvance⟩
      rw [List.drop_length]
      rfl
    · rw [Function.update_of_ne hq, Function.update_of_ne hq]
      have hmem : q ∈ p :: left ↔ q ∈ left := by
        rw [List.mem_cons]
        exact or_iff_right hq
      simp only [hmem] at hcut
      exact ⟨cut, hle, hpeak, hcut⟩
  have hcounters : ∀ k, ∃ cut, cut ≤ s.seen k ∧ s.previous k = ((s.adds k).take cut).sum ∧
      Sync.Cut List.sum (s.adds k) (s.windows.map (fun w => w.delta k) ++ [delta k]) cut := by
    intro k
    have := h.counters k
    rw [hdeltas k] at this
    exact this
  unfold State.swapped
  split
  · refine ⟨h.seen, fun k => ?_, fun _ _ hr => (by cases hr), fun q => ?_, fun _ _ _ hr => (by cases hr)⟩
    · obtain ⟨cut, hle, hprevious, hcut⟩ := hcounters k
      refine ⟨cut, hle, hprevious, ?_⟩
      unfold shownDeltas
      rw [List.map_append, List.append_nil]
      exact hcut
    · obtain ⟨cut, hle, hpeak, hcut⟩ := hpeaks q
      refine ⟨cut, hle, hpeak, ?_⟩
      unfold shownPeaks
      rw [List.map_append, List.append_nil]
      rw [if_neg List.not_mem_nil] at hcut
      exact hcut
  · refine ⟨h.seen, hcounters, fun _ _ hr => (by cases hr), hpeaks, fun _ _ _ hr => ?_⟩
    cases hr
    exact hnodup.2

private theorem Sound.step (h : Sound s) (hvalue : ∀ c n, value ((s.adds c).take n) = ((s.adds c).take n).sum)
    (hstep : s.step e = some s') : Sound s' := by
  cases e with
  | record r =>
    cases hstep
    exact h.threads _
  | act i =>
    simp only [State.step] at hstep
    split at hstep
    · rename_i op ops hi
      cases hstep
      exact (h.access op).threads _
    · cases hstep
  | report =>
    simp only [State.step] at hstep
    split at hstep
    · rename_i hidle
      cases hstep
      exact h.report hidle
    · cases hstep
  | load n =>
    simp only [State.step] at hstep
    split at hstep
    · rename_i c left snapshot hr
      split at hstep
      · rename_i hn
        cases hstep
        exact h.loaded hr hn (hvalue c n)
      · cases hstep
    · cases hstep
  | swap =>
    simp only [State.step] at hstep
    split at hstep
    · rename_i p left delta peak hr
      cases hstep
      exact h.swapped hr
    · cases hstep

private theorem sound_exec (h : Machine.exec step start es = some s) (hfit : Fits es) : Sound s := by
  have hall := Machine.exec_induction_events
    (P := fun es s => Machine.exec step start es = some s ∧ (Fits es → Sound s))
    (fun es s e s' hs hstep => ⟨Machine.exec_concat.2 ⟨s, hs.1, hstep⟩, fun hfit =>
      (hs.2 hfit.of_concat).step (value_take hs.1 hfit.of_concat) hstep⟩) ⟨rfl, fun _ => sound_start⟩ h
  exact hall.2 hfit

/-- Whatever the order of the accesses, as long as no counter overflows: between two reports, the windows show of
each counter the sums of consecutive parts of the additions to it, and of each peak the greatest of consecutive
parts of the values it was raised to.  What is behind the last part is still in the counter or the peak: the
reporter counts on from the parts it has shown, and the counter has grown by the rest since.  The additions and
the lengths that were made and those that are under way are those that were recorded. -/
theorem report_windows_exact (es : List Event) (s : State) (h : Machine.exec step start es = some s) (hfit : Fits es)
    (hidle : s.reporter = .idle) :
    (∀ c, (s.adds c ++ pending (addsTo c) s).Perm (recorded (addsTo c) es) ∧
      ∃ (parts : List (List Nat)) (left : List Nat), parts.flatten ++ left = s.adds c ∧
        s.windows.map (fun w => w.delta c) = parts.map List.sum ∧ s.previous c = parts.flatten.sum ∧
        value (s.adds c) = s.previous c + left.sum) ∧
    (∀ p, ∃ (parts : List (List Nat)) (left : List Nat), parts.flatten ++ left = s.raised p ∧
      s.windows.map (fun w => w.peak p) = parts.map Sync.maxOf ∧ s.peak p = Sync.maxOf left) ∧
    (∀ b, (s.raised (.backlog b) ++ pending (raisesTo b) s).Perm (recorded (raisesTo b) es)) := by
  have hs := sound_exec h hfit
  refine ⟨fun c => ⟨adds_perm h c, ?_⟩, fun p => ?_, raised_perm h⟩
  · obtain ⟨cut, -, hprevious, parts, hparts, hshown⟩ := hs.counters c
    unfold shownDeltas at hshown
    rw [hidle, List.append_nil] at hshown
    have hvalue := value_take h hfit c (s.adds c).length
    rw [List.take_length] at hvalue
    refine ⟨parts, (s.adds c).drop cut, by rw [hparts, List.take_append_drop], hshown, by rw [hprevious, hparts], ?_⟩
    rw [hvalue, hprevious, ← List.sum_append, List.take_append_drop]
  · obtain ⟨cut, -, hpeak, parts, hparts, hshown⟩ := hs.peaks p
    refine ⟨parts, (s.raised p).drop cut, by rw [hparts, List.take_append_drop], ?_, hpeak⟩
    unfold shownPeaks at hshown
    rw [hidle, List.append_nil] at hshown
    exact hshown

/-- A datagram is recorded between the loads of its two counters: the window has its bytes and not yet the
datagram. -/
def splitRun : List Event :=
  [.record (.outerRx 100), .report, .load 0, .act 0, .act 0, .load 1] ++ List.replicate 28 (.load 0) ++
    List.replicate 4 .swap

theorem report_windows_exact_split : ∃ s, Machine.exec step start splitRun = some s ∧
    s.windows.map (fun w => (w.delta .outerRxPackets, w.delta .outerRxBytes)) = [(0, 100)] ∧
    (s.adds .outerRxPackets ++ pending (addsTo .outerRxPackets) s).Perm [1] ∧ s.previous .outerRxPackets = 0 ∧
    ∃ left : List Nat, value (s.adds .outerRxPackets) = s.previous .outerRxPackets + left.sum ∧ left.sum = 1 := by
  have hfit : ∀ c ∈ Counter.all, (recorded (addsTo c) splitRun).sum < UInt64.size := by decide
  have hrun : (Machine.exec step start splitRun).map (fun s => (s.adds .outerRxPackets, s.previous .outerRxPackets,
      s.windows.map fun w => (w.delta .outerRxPackets, w.delta .outerRxBytes))) =
        some ([1], 0, [(0, 100)]) := by
    decide
  obtain ⟨s, hs⟩ : ∃ s, Machine.exec step start splitRun = some s := ⟨_, rfl⟩
  rw [hs, Option.map_some, Option.some.injEq, Prod.mk.injEq, Prod.mk.injEq] at hrun
  obtain ⟨hadds, hprevious, hwindows⟩ := hrun
  have hidle : s.reporter = .idle := by
    have hreporter : (Machine.exec step start splitRun).map State.reporter = some .idle := rfl
    rw [hs] at hreporter
    exact Option.some.inj hreporter
  obtain ⟨hperm, parts, left, -, -, -, hvalue⟩ :=
    (report_windows_exact splitRun s hs (fun c => hfit c (mem_all c)) hidle).1 .outerRxPackets
  refine ⟨s, hs, hwindows, hperm, hprevious, left, hvalue, ?_⟩
  rw [hadds, hprevious, Nat.zero_add] at hvalue
  exact hvalue.symm.trans (by decide)

end State

end WarpSocks.Dataplane
