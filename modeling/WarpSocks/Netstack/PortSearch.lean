import WarpSocks.Netstack.Ports

/-!
# The search for a free port

`select_port` goes through the 50000 ports of the ephemeral range in cyclic order from the cursor on.  It returns
the first one that is free, and leaves the cursor behind it (`selectPortLoop_eq`); each port of the range is
looked at once (`exists_portAfter`), so it fails only if all of them are in use.
-/

namespace WarpSocks.Netstack

/-- The `i`-th port behind a port, in the cyclic order of the ephemeral range. -/
def portAfter (port : UInt16) (i : Nat) : UInt16 := UInt16.ofNat (10001 + (port.toNat - 10001 + i) % 50000)

private theorem toNat_portAfter (port : UInt16) (i : Nat) :
    (portAfter port i).toNat = 10001 + (port.toNat - 10001 + i) % 50000 := by
  have hlt : (port.toNat - 10001 + i) % 50000 < 50000 := Nat.mod_lt _ (by decide)
  rw [portAfter, UInt16.toNat_ofNat']
  exact Nat.mod_eq_of_lt (by omega)

private theorem ephemeral_portAfter (port : UInt16) (i : Nat) : Ephemeral (portAfter port i) := by
  have hlt : (port.toNat - 10001 + i) % 50000 < 50000 := Nat.mod_lt _ (by decide)
  rw [ephemeral_iff, toNat_portAfter]
  omega

private theorem portAfter_portAfter (port : UInt16) (i j : Nat) :
    portAfter (portAfter port i) j = portAfter port (i + j) := by
  rw [← UInt16.toNat_inj, toNat_portAfter, toNat_portAfter, toNat_portAfter]
  omega

/-- After 50000 ports the order is back where it began. -/
private theorem portAfter_all {port : UInt16} (h : Ephemeral port) : portAfter port 50000 = port := by
  rw [ephemeral_iff] at h
  rw [← UInt16.toNat_inj, toNat_portAfter]
  omega

private theorem portAfter_zero {port : UInt16} (h : Ephemeral port) : portAfter port 0 = port := by
  rw [ephemeral_iff] at h
  rw [← UInt16.toNat_inj, toNat_portAfter]
  omega

/-- Every port of the range comes once. -/
theorem exists_portAfter {next port : UInt16} (hnext : Ephemeral next) (hport : Ephemeral port) :
    ∃ i, (i < 50000 ∧ portAfter next i = port) ∧ ∀ j, j < 50000 ∧ portAfter next j = port → j = i := by
  rw [ephemeral_iff] at hnext hport
  simp only [← UInt16.toNat_inj, toNat_portAfter]
  exact ⟨(port.toNat + 50000 - next.toNat) % 50000, by omega, fun j hj => by omega⟩

/-- The cursor moves to the next port of the order. -/
private theorem next_eq_portAfter {candidate : UInt16} (h : Ephemeral candidate) :
    (if EPHEMERAL_PORT_LAST ≤ candidate then EPHEMERAL_PORT_FIRST else candidate + 1) = portAfter candidate 1 := by
  rw [ephemeral_iff] at h
  rw [← UInt16.toNat_inj, toNat_portAfter]
  split
  · rename_i hlast
    have hlast : 60000 ≤ candidate.toNat := UInt16.le_iff_toNat_le.1 hlast
    show 10001 = _
    omega
  · rename_i hlast
    have hlast : ¬60000 ≤ candidate.toNat := fun hle => hlast (UInt16.le_iff_toNat_le.2 hle)
    have hadd : (candidate + 1).toNat = candidate.toNat + 1 := by
      rw [UInt16.toNat_add]
      exact Nat.mod_eq_of_lt (show candidate.toNat + 1 < 65536 by omega)
    omega

/-- The loop finds the first free port of as many as there are rounds, and leaves the cursor behind the last one
it has looked at. -/
theorem selectPortLoop_eq (inUse : UInt16 → Bool) (rounds : Nat) {next : UInt16} (h : Ephemeral next) :
    selectPortLoop inUse rounds next =
      match (List.range rounds).find? fun i => !inUse (portAfter next i) with
      | some i => (.ok (portAfter next i), portAfter next (i + 1))
      | none => (.error ⟨.addrNotAvailable, "临时端口已耗尽"⟩, portAfter next rounds) := by
  induction rounds generalizing next with
  | zero => simp [selectPortLoop, portAfter_zero h]
  | succ rounds ih =>
    have hshift (i : Nat) : portAfter (portAfter next 1) i = portAfter next (i + 1) := by
      rw [portAfter_portAfter, Nat.add_comm]
    rw [selectPortLoop, next_eq_portAfter h, List.range_succ_eq_map, List.find?_cons, portAfter_zero h]
    by_cases hu : inUse next = true
    · rw [hu, Bool.not_true, if_neg Bool.false_ne_true, ih (ephemeral_portAfter next 1), List.find?_map]
      simp only [Function.comp_def, hshift, Nat.succ_eq_add_one]
      cases (List.range rounds).find? fun i => !inUse (portAfter next (i + 1)) <;> rfl
    · rw [Bool.eq_false_iff.2 hu, Bool.not_false, if_pos rfl]
      simp only [portAfter_zero h, Nat.zero_add]

/-- The port at `i` is free, and those before it in the order are in use. -/
private theorem find?_portAfter_iff {inUse : UInt16 → Bool} {next : UInt16} {i : Nat} :
    (List.range 50000).find? (fun i => !inUse (portAfter next i)) = some i ↔
      i < 50000 ∧ inUse (portAfter next i) = false ∧ ∀ j < i, inUse (portAfter next j) = true := by
  rw [List.find?_range_eq_some, List.mem_range]
  simp only [Bool.not_eq_true', Bool.not_not, and_left_comm]

/-- With no port requested, `select_port` is the loop over the whole range. -/
private theorem selectPort_zero (next : UInt16) (inUse : UInt16 → Bool) :
    selectPort next 0 inUse = selectPortLoop inUse 50000 next := by
  have hcount : (EPHEMERAL_PORT_LAST - EPHEMERAL_PORT_FIRST).toNat + 1 = 50000 := by decide
  rw [selectPort, if_neg (not_not.2 rfl), hcount]

section Search

variable {next : UInt16} {inUse : UInt16 → Bool}

/-- A port is found iff it is the first free one, and then the cursor is behind it. -/
private theorem selectPort_eq_ok_iff (hnext : Ephemeral next) {port next' : UInt16} :
    selectPort next 0 inUse = (.ok port, next') ↔
      (∃ i < 50000, port = portAfter next i ∧ inUse port = false ∧ ∀ j < i, inUse (portAfter next j) = true) ∧
        next' = portAfter port 1 := by
  rw [selectPort_zero, selectPortLoop_eq inUse 50000 hnext]
  constructor
  · intro h
    cases hf : (List.range 50000).find? fun i => !inUse (portAfter next i) with
    | none =>
      rw [hf] at h
      cases h
    | some i =>
      rw [hf] at h
      cases h
      obtain ⟨hi, hfree, hused⟩ := find?_portAfter_iff.1 hf
      exact ⟨⟨i, hi, rfl, hfree, hused⟩, (portAfter_portAfter next i 1).symm⟩
  · rintro ⟨⟨i, hi, rfl, hfree, hused⟩, rfl⟩
    rw [find?_portAfter_iff.2 ⟨hi, hfree, hused⟩]
    dsimp only
    rw [portAfter_portAfter]

/-- No port is found iff all are in use, and then the cursor has gone round. -/
private theorem selectPort_eq_error_iff (hnext : Ephemeral next) {e : IoError} {next' : UInt16} :
    selectPort next 0 inUse = (.error e, next') ↔
      (∀ port, Ephemeral port → inUse port = true) ∧ e = ⟨.addrNotAvailable, "临时端口已耗尽"⟩ ∧ next' = next := by
  have hall : (List.range 50000).find? (fun i => !inUse (portAfter next i)) = none ↔
      ∀ port, Ephemeral port → inUse port = true := by
    rw [List.find?_range_eq_none]
    simp only [Bool.not_not]
    constructor
    · intro h port hport
      obtain ⟨i, ⟨hi, rfl⟩, -⟩ := exists_portAfter hnext hport
      exact h i hi
    · intro h i _
      exact h _ (ephemeral_portAfter next i)
  rw [selectPort_zero, selectPortLoop_eq inUse 50000 hnext]
  constructor
  · intro h
    cases hf : (List.range 50000).find? fun i => !inUse (portAfter next i) with
    | none =>
      rw [hf] at h
      cases h
      exact ⟨hall.1 hf, rfl, portAfter_all hnext⟩
    | some i =>
      rw [hf] at h
      cases h
  · rintro ⟨hused, rfl, rfl⟩
    rw [hall.2 hused]
    dsimp only
    rw [portAfter_all hnext]

end Search

/-- A requested port is returned iff it is free, and the cursor stays. -/
private theorem selectPort_requested (next : UInt16) {requested : UInt16} (hr : requested ≠ 0)
    (inUse : UInt16 → Bool) :
    (selectPort next requested inUse).2 = next ∧
      ((∃ port, (selectPort next requested inUse).1 = .ok port) ↔ inUse requested = false) ∧
      ∀ port, (selectPort next requested inUse).1 = .ok port → port = requested := by
  rw [selectPort, if_pos hr]
  cases hu : inUse requested with
  | true => simp
  | false => simp [eq_comm]

/-- `select_port` is a complete cyclic search: it finds the first free port from the cursor on and leaves the
cursor behind it, and fails iff every port of the range is in use, with the cursor back where it was.  A requested
port is returned iff it is free, and the cursor does not move.  The cyclic order has every port of the range
once. -/
theorem selectPort_complete (next : UInt16) (hnext : Ephemeral next) (inUse : UInt16 → Bool) :
    (∀ port next', selectPort next 0 inUse = (.ok port, next') ↔
      (∃ i < 50000, port = portAfter next i ∧ inUse port = false ∧ ∀ j < i, inUse (portAfter next j) = true) ∧
        next' = portAfter port 1) ∧
    Ephemeral (selectPort next 0 inUse).2 ∧
    ((∃ e, (selectPort next 0 inUse).1 = .error e) ↔ ∀ port, Ephemeral port → inUse port = true) ∧
    (∀ e, (selectPort next 0 inUse).1 = .error e → (selectPort next 0 inUse).2 = next) ∧
    (∀ requested, requested ≠ 0 → (selectPort next requested inUse).2 = next ∧
      ((∃ port, (selectPort next requested inUse).1 = .ok port) ↔ inUse requested = false) ∧
      ∀ port, (selectPort next requested inUse).1 = .ok port → port = requested) ∧
    (∀ port, Ephemeral port ↔ ∃ i < 50000, portAfter next i = port) ∧
    (∀ i j, i < 50000 → j < 50000 → portAfter next i = portAfter next j → i = j) := by
  refine ⟨fun port next' => selectPort_eq_ok_iff hnext, ?_, ?_, ?_,
    fun requested hr => selectPort_requested next hr inUse, fun port => ?_, ?_⟩
  · rcases hs : selectPort next 0 inUse with ⟨e | port, next'⟩
    · rw [((selectPort_eq_error_iff hnext).1 hs).2.2]
      exact hnext
    · rw [((selectPort_eq_ok_iff hnext).1 hs).2]
      exact ephemeral_portAfter port 1
  · constructor
    · rintro ⟨e, he⟩
      exact ((selectPort_eq_error_iff hnext).1 (Prod.ext he rfl)).1
    · intro hused
      rw [(selectPort_eq_error_iff hnext).2 ⟨hused, rfl, rfl⟩]
      exact ⟨_, rfl⟩
  · intro e he
    exact ((selectPort_eq_error_iff hnext).1 (Prod.ext he rfl)).2.2
  · constructor
    · intro hport
      obtain ⟨i, hi, -⟩ := exists_portAfter hnext hport
      exact ⟨i, hi⟩
    · rintro ⟨i, -, rfl⟩
      exact ephemeral_portAfter next i
  · intro i j hi hj hij
    obtain ⟨k, -, hk⟩ := exists_portAfter hnext (ephemeral_portAfter next j)
    rw [hk i ⟨hi, hij⟩, hk j ⟨hj, rfl⟩]

/-- From the last port, which is in use, the search goes on with the first one. -/
theorem selectPort_complete_wraps :
    Ephemeral 60000 ∧ selectPort 60000 0 (fun port => port == 60000) = (.ok 10001, 10002) := by
  have hnext : Ephemeral 60000 := (ephemeral_iff _).2 (by decide)
  refine ⟨hnext, ((selectPort_complete 60000 hnext _).1 10001 10002).2
    ⟨⟨1, by decide, by decide, by decide, ?_⟩, by decide⟩⟩
  intro j hj
  obtain rfl : j = 0 := by omega
  decide

end WarpSocks.Netstack
