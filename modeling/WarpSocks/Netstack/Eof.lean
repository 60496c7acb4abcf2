import WarpSocks.Netstack.TcpStream

/-!
# The end of a stream

`poll_read` reports the end of the stream whenever nothing can be received any more, so also after an RST.  What is
read is always a front of what arrived, and the receiving side ends with the first FIN or RST (`run_invariant`);
therefore an end of stream is a real one in every run in which no RST comes ahead of the FIN, and in no other
(`eof_sound_iff`).
-/

namespace WarpSocks.Netstack

/-- The steps of a run: something arrives, the application reads with room for `n` bytes, or shuts down. -/
inductive Action where
  | inbound (e : Event)
  | read (n : Nat)
  | shutdown
  deriving DecidableEq, Repr

/-- A connection: its socket and what the application has read. -/
structure Connection where
  socket : Socket
  returned : List UInt8
  deriving DecidableEq, Repr

variable (tcp : Smoltcp)

/-- One step, on a reactor that has not been stopped. -/
def act (c : Connection) : Action → Connection
  | .inbound e => { c with socket := tcp.step c.socket e }
  | .read n =>
    match pollRead tcp false c.socket n with
    | (.ready (.ok bytes), socket) => ⟨socket, c.returned ++ bytes⟩
    | (_, socket) => { c with socket }
  | .shutdown => { c with socket := (pollShutdown tcp false c.socket).2 }

/-- A run from a socket nothing has been read from. -/
def run (s : Socket) (actions : List Action) : Connection := actions.foldl (act tcp) ⟨s, []⟩

/-- A FIN arrives, and no RST ahead of it. -/
def finSent : List Action → Bool
  | [] => false
  | .inbound (.data _ true) :: _ => true
  | .inbound .rst :: _ => false
  | _ :: actions => finSent actions

/-- An RST arrives, and no FIN ahead of it. -/
def rstFirst : List Action → Bool
  | [] => false
  | .inbound (.data _ true) :: _ => false
  | .inbound .rst :: _ => true
  | _ :: actions => rstFirst actions

/-- The bytes the remote side sends, up to its FIN or RST. -/
def received : List Action → List UInt8
  | [] => []
  | .inbound (.data payload true) :: _ => payload
  | .inbound .rst :: _ => []
  | .inbound (.data payload false) :: actions => payload ++ received actions
  | _ :: actions => received actions

/-- Every end of stream that the run reports comes behind the FIN and all bytes ahead of it. -/
def EofSound (s : Socket) (actions : List Action) : Prop :=
  ∀ pre n post, actions = pre ++ .read n :: post → 0 < n →
    (pollRead tcp false (run tcp s pre).socket n).1 = .ready (.ok []) →
    finSent pre ∧ (run tcp s pre).returned = s.rx ++ received pre

/-! ### What a step does -/

/-- `poll_read` takes what there is, and reports the end of the stream when nothing is there or can come. -/
private theorem pollRead_eq (s : Socket) (n : Nat) :
    pollRead tcp false s n =
      if s.rx = [] then (if s.state.receiving then .pending else .ready (.ok []), s)
      else (.ready (.ok (s.rx.take n)), { s with rx := s.rx.drop n }) := by
  unfold pollRead
  by_cases hrx : s.rx = []
  · cases hr : s.state.receiving <;> simp [tcp.mayRecv_eq, tcp.canRecv_eq, hrx, hr]
  · simp [tcp.mayRecv_eq, tcp.canRecv_eq, hrx, tcp.recvSlice_eq _ n hrx]

/-- No bytes for a non-empty buffer: everything has been read and nothing can come. -/
private theorem pollRead_eof {s : Socket} {n : Nat} (hn : 0 < n)
    (h : (pollRead tcp false s n).1 = .ready (.ok [])) : s.rx = [] ∧ s.state.receiving = false := by
  rw [pollRead_eq] at h
  by_cases hrx : s.rx = []
  · cases hr : s.state.receiving with
    | false => exact ⟨hrx, rfl⟩
    | true => simp [hrx, hr] at h
  · simp [hrx, Nat.ne_of_gt hn] at h

/-- Reading moves bytes from the receive queue to the application. -/
private theorem act_read (c : Connection) (n : Nat) :
    (act tcp c (.read n)).socket.state = c.socket.state ∧
    (act tcp c (.read n)).returned ++ (act tcp c (.read n)).socket.rx = c.returned ++ c.socket.rx := by
  rw [act, pollRead_eq]
  by_cases hrx : c.socket.rx = []
  · cases hr : c.socket.state.receiving <;> simp [hrx]
  · simp [hrx]

private theorem act_shutdown (c : Connection) :
    (c.socket.state.receiving → (act tcp c .shutdown).socket.state.receiving) ∧
    (c.socket.state.ended → (act tcp c .shutdown).socket.state.ended) ∧
    (act tcp c .shutdown).returned ++ (act tcp c .shutdown).socket.rx = c.returned ++ c.socket.rx := by
  have hsocket : (pollShutdown tcp false c.socket).2 = if tcp.isOpen c.socket then tcp.close c.socket
      else c.socket := by
    simp only [pollShutdown, Bool.false_eq_true, ↓reduceIte, apply_ite Prod.snd, ite_self]
  simp only [act, hsocket]
  split
  · exact ⟨tcp.close_receiving _, tcp.close_ended _, by rw [tcp.close_rx]⟩
  · exact ⟨id, id, rfl⟩

/-- Once the receiving side has ended, it stays so, and nothing more arrives. -/
private theorem foldl_ended (actions : List Action) : ∀ c : Connection, c.socket.state.ended →
    (actions.foldl (act tcp) c).socket.state.ended ∧
    (actions.foldl (act tcp) c).returned ++ (actions.foldl (act tcp) c).socket.rx = c.returned ++ c.socket.rx := by
  induction actions with
  | nil => exact fun c h => ⟨h, rfl⟩
  | cons a actions ih =>
    intro c hc
    rw [List.foldl_cons]
    cases a with
    | inbound e =>
      obtain ⟨hend, hbytes⟩ := ih (act tcp c (.inbound e)) (tcp.step_ended _ e hc)
      refine ⟨hend, hbytes.trans ?_⟩
      simp [act, tcp.step_rx, State.not_receiving_of_ended hc]
    | read n =>
      obtain ⟨hstate, hread⟩ := act_read tcp c n
      obtain ⟨hend, hbytes⟩ := ih (act tcp c (.read n)) (by rw [hstate]; exact hc)
      exact ⟨hend, hbytes.trans hread⟩
    | shutdown =>
      obtain ⟨-, hshut, hrx⟩ := act_shutdown tcp c
      obtain ⟨hend, hbytes⟩ := ih (act tcp c .shutdown) (hshut hc)
      exact ⟨hend, hbytes.trans hrx⟩

/-- The receiving side ends with the first FIN or RST, and what is read or can still be read is what arrived. -/
private theorem foldl_receiving (actions : List Action) : ∀ c : Connection, c.socket.state.receiving →
    (finSent actions = false → rstFirst actions = false → (actions.foldl (act tcp) c).socket.state.receiving) ∧
    (finSent actions ∨ rstFirst actions → (actions.foldl (act tcp) c).socket.state.ended) ∧
    (actions.foldl (act tcp) c).returned ++ (actions.foldl (act tcp) c).socket.rx =
      c.returned ++ c.socket.rx ++ received actions := by
  induction actions with
  | nil => exact fun c h => ⟨fun _ _ => h, fun h => by simp [finSent, rstFirst] at h, by simp [received]⟩
  | cons a actions ih =>
    intro c hc
    rw [List.foldl_cons]
    -- a step that neither ends the receiving side nor carries data is passed over by the three functions
    have hpass (c' : Connection) (hc' : c'.socket.state.receiving) (hbytes : c'.returned ++ c'.socket.rx =
        c.returned ++ c.socket.rx) := hbytes ▸ ih c' hc'
    cases a with
    | inbound e =>
      cases e with
      | data payload fin =>
        have hrx : (act tcp c (.inbound (.data payload fin))).returned ++
            (act tcp c (.inbound (.data payload fin))).socket.rx = c.returned ++ c.socket.rx ++ payload := by
          simp [act, tcp.step_rx, hc, Event.payload]
        cases fin with
        | true =>
          obtain ⟨hend, hbytes⟩ := foldl_ended tcp actions (act tcp c (.inbound (.data payload true)))
            (tcp.step_fin_ended _ _ hc rfl)
          exact ⟨fun h => by simp [finSent] at h, fun _ => hend, hbytes.trans hrx⟩
        | false =>
          obtain ⟨hrec, hend, hbytes⟩ := ih (act tcp c (.inbound (.data payload false)))
            (tcp.step_receiving _ _ hc rfl (by simp))
          refine ⟨hrec, hend, ?_⟩
          rw [hbytes, hrx, received, List.append_assoc]
      | rst =>
        have hclosed : (act tcp c (.inbound .rst)).socket.state = .closed := tcp.step_rst _
        obtain ⟨hend, hbytes⟩ := foldl_ended tcp actions (act tcp c (.inbound .rst)) (by rw [hclosed]; rfl)
        refine ⟨fun _ h => by simp [rstFirst] at h, fun _ => hend, hbytes.trans ?_⟩
        simp [act, tcp.step_rx, Event.payload, received]
      | synAck | finAcked | expired =>
        exact hpass _ (tcp.step_receiving _ _ hc rfl (by simp)) (by simp [act, tcp.step_rx, Event.payload])
    | read n =>
      obtain ⟨hstate, hread⟩ := act_read tcp c n
      exact hpass _ (by rw [hstate]; exact hc) hread
    | shutdown =>
      obtain ⟨hshut, -, hrx⟩ := act_shutdown tcp c
      exact hpass _ (hshut hc) hrx

/-! ### The theorem -/

private theorem rstFirst_append (xs ys : List Action) :
    rstFirst (xs ++ ys) = (rstFirst xs || (!finSent xs && rstFirst ys)) := by
  fun_induction rstFirst xs with
  | case1 => simp [finSent]
  | case2 => simp [rstFirst, finSent]
  | case3 => simp [rstFirst]
  | case4 a xs hfin hrst ih => rw [List.cons_append, rstFirst.eq_4 _ _ hfin hrst, finSent.eq_4 _ _ hfin hrst, ih]

private theorem finSent_append (xs ys : List Action) :
    finSent (xs ++ ys) = (finSent xs || (!rstFirst xs && finSent ys)) := by
  fun_induction finSent xs with
  | case1 => simp [rstFirst]
  | case2 => simp [finSent]
  | case3 => simp [finSent, rstFirst]
  | case4 a xs hfin hrst ih => rw [List.cons_append, finSent.eq_4 _ _ hfin hrst, rstFirst.eq_4 _ _ hfin hrst, ih]

private theorem finSent_of_rstFirst {xs : List Action} (h : rstFirst xs = true) : finSent xs = false := by
  fun_induction rstFirst xs with
  | case1 => rfl
  | case2 => cases h
  | case3 => rfl
  | case4 a xs hfin hrst ih => rw [finSent.eq_4 _ _ hfin hrst, ih h]

private theorem reads_silent (reads : List Nat) :
    finSent (reads.map .read) = false ∧ rstFirst (reads.map .read) = false := by
  induction reads with
  | nil => exact ⟨rfl, rfl⟩
  | cons n reads ih => exact ih

private theorem act_drain (c : Connection) :
    (act tcp c (.read c.socket.rx.length)).socket = ⟨c.socket.state, []⟩ := by
  rw [act, pollRead_eq]
  obtain ⟨⟨state, rx⟩, returned⟩ := c
  by_cases hrx : rx = []
  · cases state.receiving <;> simp [hrx]
  · simp [hrx]

/-- The end of a stream.  For every run, the ends of stream reported in it or by any reads behind it are all real
if and only if no RST arrives ahead of the FIN. -/
theorem eof_sound_iff (s : Socket) (hs : s.state = .established) (actions : List Action) :
    (∀ reads : List Nat, EofSound tcp s (actions ++ reads.map .read)) ↔ rstFirst actions = false := by
  have hrec : s.state.receiving := by rw [hs]; rfl
  constructor
  · intro hsound
    cases hrst : rstFirst actions with
    | false => rfl
    | true =>
      -- read what is left, and then once more
      obtain ⟨-, hend, -⟩ := foldl_receiving tcp actions ⟨s, []⟩ hrec
      have hdrained : (run tcp s (actions ++ [.read (run tcp s actions).socket.rx.length])).socket =
          ⟨(run tcp s actions).socket.state, []⟩ := by
        rw [run, List.foldl_append]
        exact act_drain tcp (run tcp s actions)
      have hno := hsound [(run tcp s actions).socket.rx.length, 1]
        (actions ++ [.read (run tcp s actions).socket.rx.length]) 1 [] (by simp) (by decide) (by
          rw [pollRead_eq, hdrained]
          simp [State.not_receiving_of_ended (show (run tcp s actions).socket.state.ended from hend (.inr hrst))])
      rw [finSent_append, finSent_of_rstFirst hrst, hrst] at hno
      simp at hno
  · intro hrst reads pre n post hsplit hn heof
    have hpre : rstFirst pre = false := by
      have h : rstFirst (pre ++ .read n :: post) = false := by
        rw [← hsplit, rstFirst_append, hrst, (reads_silent reads).2]
        simp
      rw [rstFirst_append, Bool.or_eq_false_iff] at h
      exact h.1
    obtain ⟨hopen, -, hbytes⟩ := foldl_receiving tcp pre ⟨s, []⟩ hrec
    obtain ⟨hrx, hstate⟩ := pollRead_eof tcp hn heof
    refine ⟨?_, ?_⟩
    · cases hfin : finSent pre with
      | true => rfl
      | false =>
        have hrecv := hopen hfin hpre
        rw [show (pre.foldl (act tcp) ⟨s, []⟩) = run tcp s pre from rfl, hstate] at hrecv
        cases hrecv
    · rw [show (pre.foldl (act tcp) ⟨s, []⟩) = run tcp s pre from rfl, hrx, List.append_nil] at hbytes
      exact hbytes

/-- A reply and a FIN, read with a large buffer. -/
theorem eof_sound_iff_fin :
    (⟨.established, []⟩ : Socket).state = .established ∧
    EofSound reference ⟨.established, []⟩ ([.inbound (.data [0x48, 0x69] true)] ++ [16, 16].map .read) :=
  ⟨rfl, (eof_sound_iff reference ⟨.established, []⟩ rfl [.inbound (.data [0x48, 0x69] true)]).2 rfl [16, 16]⟩

/-- A reply cut off by an RST ends like a complete one. -/
theorem rst_read_as_eof :
    let actions := [Action.inbound (.data [0x48] false), .inbound .rst, .read 16]
    (run reference ⟨.established, []⟩ actions).returned = [0x48] ∧ finSent actions = false ∧
    (pollRead reference false (run reference ⟨.established, []⟩ actions).socket 16).1 = .ready (.ok []) :=
  ⟨rfl, rfl, rfl⟩

end WarpSocks.Netstack
