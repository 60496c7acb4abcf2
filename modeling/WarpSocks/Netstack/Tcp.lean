import WarpSocks.Io

/-!
# TCP sockets

What `netstack.rs` uses of smoltcp's TCP sockets.  smoltcp is a parameter: a `Smoltcp` is any implementation of
the calls together with the documented behaviour that is relied on, each fact a field.  `reference` is the
implementation that follows the TCP state diagram.
-/

namespace WarpSocks.Netstack

/-- `tcp::State`. -/
inductive State where
  | closed
  | listen
  | synSent
  | synReceived
  | established
  | finWait1
  | finWait2
  | closeWait
  | closing
  | lastAck
  | timeWait
  deriving DecidableEq, Repr

/-- The remote side may still send data. -/
def State.receiving : State → Bool
  | .established | .finWait1 | .finWait2 => true
  | _ => false

/-- The remote side has finished sending, or the connection is gone. -/
def State.ended : State → Bool
  | .closeWait | .closing | .lastAck | .timeWait | .closed => true
  | _ => false

/-- What `Interface::poll` can make a socket take in: an acceptable SYN|ACK, the next data in sequence with or
without a FIN, an acceptable RST, the acknowledgement of the own FIN, and the end of the TIME-WAIT period. -/
inductive Event where
  | synAck
  | data (payload : List UInt8) (fin : Bool)
  | rst
  | finAcked
  | expired
  deriving DecidableEq, Repr

/-- The event carries a FIN. -/
def Event.isFin : Event → Bool
  | .data _ fin => fin
  | _ => false

/-- The data the event carries. -/
def Event.payload : Event → List UInt8
  | .data payload _ => payload
  | _ => []

/-- A TCP socket: its state and the received bytes that have not been read. -/
structure Socket where
  state : State
  rx : List UInt8
  deriving DecidableEq, Repr

/-- smoltcp's TCP sockets. -/
structure Smoltcp where
  step : Socket → Event → Socket
  close : Socket → Socket
  isOpen : Socket → Bool
  mayRecv : Socket → Bool
  canRecv : Socket → Bool
  recvSlice : Socket → Nat → Except String (List UInt8 × Socket)
  step_synAck : ∀ s, s.state = .synSent → (step s .synAck).state = .established
  step_data : ∀ s payload, s.state = .established → (step s (.data payload false)).state = .established
  step_fin : ∀ s payload, s.state = .established → (step s (.data payload true)).state = .closeWait
  step_closeWait : ∀ s payload fin, s.state = .closeWait → (step s (.data payload fin)).state = .closeWait
  step_rst : ∀ s, (step s .rst).state = .closed
  step_closed : ∀ s e, s.state = .closed → (step s e).state = .closed
  /-- Only a FIN or an RST ends the receiving side … -/
  step_receiving : ∀ s e, s.state.receiving → e.isFin = false → e ≠ .rst → (step s e).state.receiving
  step_fin_ended : ∀ s e, s.state.receiving → e.isFin → (step s e).state.ended
  /-- … for good. -/
  step_ended : ∀ s e, s.state.ended → (step s e).state.ended
  /-- Data is queued as long as the remote side may send. -/
  step_rx : ∀ s e, (step s e).rx = s.rx ++ if s.state.receiving then e.payload else []
  /-- Closing concerns the sending side. -/
  close_receiving : ∀ s, s.state.receiving → (close s).state.receiving
  close_ended : ∀ s, s.state.ended → (close s).state.ended
  close_rx : ∀ s, (close s).rx = s.rx
  isOpen_iff : ∀ s, isOpen s ↔ s.state ≠ .closed ∧ s.state ≠ .timeWait
  mayRecv_iff : ∀ s, mayRecv s ↔ s.state.receiving ∨ s.rx ≠ []
  canRecv_iff : ∀ s, canRecv s ↔ s.rx ≠ []
  recvSlice_eq : ∀ s n, s.rx ≠ [] → recvSlice s n = .ok (s.rx.take n, { s with rx := s.rx.drop n })

theorem State.not_receiving_of_ended {s : State} (h : s.ended) : s.receiving = false := by
  cases s <;> simp_all [State.ended, State.receiving]

theorem Smoltcp.mayRecv_eq (tcp : Smoltcp) (s : Socket) : tcp.mayRecv s = (s.state.receiving || !s.rx.isEmpty) := by
  rw [Bool.eq_iff_iff, tcp.mayRecv_iff]
  simp

theorem Smoltcp.canRecv_eq (tcp : Smoltcp) (s : Socket) : tcp.canRecv s = !s.rx.isEmpty := by
  rw [Bool.eq_iff_iff, tcp.canRecv_iff]
  simp

namespace Reference

/-- The state diagram. -/
def next : State → Event → State
  | _, .rst => .closed
  | .synSent, .synAck => .established
  | .established, .data _ true => .closeWait
  | .finWait1, .data _ true => .closing
  | .finWait2, .data _ true => .timeWait
  | .finWait1, .finAcked => .finWait2
  | .closing, .finAcked => .timeWait
  | .lastAck, .finAcked => .closed
  | .timeWait, .expired => .closed
  | s, _ => s

/-- The state diagram, for a local close. -/
def closed : State → State
  | .listen | .synSent => .closed
  | .synReceived | .established => .finWait1
  | .closeWait => .lastAck
  | s => s

end Reference

/-- Sockets that follow the state diagram. -/
def reference : Smoltcp where
  step s e := ⟨Reference.next s.state e, s.rx ++ if s.state.receiving then e.payload else []⟩
  close s := { s with state := Reference.closed s.state }
  isOpen s := s.state ≠ .closed ∧ s.state ≠ .timeWait
  mayRecv s := s.state.receiving || !s.rx.isEmpty
  canRecv s := !s.rx.isEmpty
  recvSlice s n := if s.rx = [] then .error "invalid state" else .ok (s.rx.take n, { s with rx := s.rx.drop n })
  step_synAck s h := by simp [Reference.next, h]
  step_data s p h := by simp [Reference.next, h]
  step_fin s p h := by simp [Reference.next, h]
  step_closeWait s p fin h := by simp [Reference.next, h]
  step_rst s := by simp [Reference.next]
  step_closed s e h := by cases e <;> simp [Reference.next, h]
  step_receiving s e hs hfin hrst := by
    rcases s with ⟨_ | _, rx⟩ <;> cases e <;> simp_all [State.receiving, Reference.next, Event.isFin]
  step_fin_ended s e hs hfin := by
    rcases s with ⟨_ | _, rx⟩ <;> cases e <;> simp_all [State.receiving, State.ended, Reference.next, Event.isFin]
  step_ended s e hs := by
    rcases s with ⟨_ | _, rx⟩ <;> cases e <;> simp_all [State.ended, Reference.next]
  step_rx s e := rfl
  close_receiving s h := by rcases s with ⟨_ | _, rx⟩ <;> simp_all [State.receiving, Reference.closed]
  close_ended s h := by rcases s with ⟨_ | _, rx⟩ <;> simp_all [State.ended, Reference.closed]
  close_rx s := rfl
  isOpen_iff s := by simp
  mayRecv_iff s := by simp
  canRecv_iff s := by simp
  recvSlice_eq s n h := by simp [h]

end WarpSocks.Netstack
