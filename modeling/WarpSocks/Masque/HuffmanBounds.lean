import Mathlib.Logic.Relation
import WarpSocks.Machine.Checked
import WarpSocks.Machine.Loop
import WarpSocks.Masque.HuffmanExact

/-!
# The bounds of the Huffman accumulator

`decode` of `masque/huffman.rs` statement by statement: a state holds `acc`, `nbits` and `out` together with the
place in the two loops, and `step` runs up to the next place.  A step panics where an operation of the source
would lose a bit, shift by 64 or more, or underflow.  Every 30-bit string starts with a code word, so at most 29
bits are left when the inner loop ends; from that every state of a run has at most 37 bits in the accumulator, no
step panics, and the run comes to its end with the result of `decode`.
-/

namespace WarpSocks.Masque.Huffman

open Machine (Checked Round)
open Machine.Checked
open Relation (ReflTransGen)

/-- The places of `decode`: at the `for`, between its two assignments, at the `while let`, and between its two
assignments. -/
inductive Place where
  | outer
  | pushed
  | inner
  | popped
  deriving DecidableEq

/-- The variables of `decode` at a place; `buf` is what the `for` has not taken yet. -/
structure Point where
  place : Place
  buf : List UInt8
  acc : Nat
  nbits : Nat
  out : List UInt8

/-- `(1u64 << n) - 1`. -/
def maskChecked (n : Nat) : Checked String Nat := do
  require (n < 64)
  require (1 ≤ shl64 1 n)
  pure (shl64 1 n - 1)

/-- The scan of `match_symbol` with its checks. -/
def matchFromChecked (acc nbits : Nat) : Nat → List (Nat × Nat) → Checked String (Option (Nat × Nat))
  | _, [] => pure none
  | sym, (code, len) :: rest =>
    if len ≤ nbits then do
      let shift := nbits - len
      require (shift < 64)
      let mask ← maskChecked len
      let candidate := shr64 acc shift &&& mask
      if candidate = code then pure (some (sym, len)) else matchFromChecked acc nbits (sym + 1) rest
    else matchFromChecked acc nbits (sym + 1) rest

/-- `match_symbol` with its checks. -/
def matchSymbolChecked (acc nbits : Nat) : Checked String (Option (Nat × Nat)) := matchFromChecked acc nbits 0 table

/-- One assignment of `decode`, or one test of a loop, from the place of the point to the next one. -/
def step (p : Point) : Checked String (Round Point (List UInt8)) :=
  match p.place with
  | .outer =>
    match p.buf with
    | byte :: buf => do
      require (p.acc <<< 8 < 2 ^ 64)
      pure (.next { p with place := .pushed, buf := buf, acc := shl64 p.acc 8 ||| byte.toNat })
    | [] =>
      if 8 ≤ p.nbits then throw "Huffman 数据结尾前存在未解码的完整字节"
      else if 0 < p.nbits then do
        let paddingMask ← maskChecked p.nbits
        if p.acc &&& paddingMask ≠ paddingMask then throw "Huffman padding 不是全 1，数据可能损坏"
        else pure (.stop p.out)
      else pure (.stop p.out)
  | .pushed => do
    require (p.nbits + 8 < 2 ^ 32)
    pure (.next { p with place := .inner, nbits := p.nbits + 8 })
  | .inner => do
    match ← matchSymbolChecked p.acc p.nbits with
    | none => pure (.next { p with place := .outer })
    | some (sym, len) =>
      if sym = 256 then throw "Huffman 流中出现 EOS 符号"
      else do
        require (len ≤ p.nbits)
        pure (.next { p with place := .popped, nbits := p.nbits - len, out := p.out ++ [UInt8.ofNat sym] })
  | .popped => do
    let mask ← maskChecked p.nbits
    pure (.next { p with place := .inner, acc := p.acc &&& mask })

/-- The point `decode` starts at. -/
def start (buf : List UInt8) : Point := ⟨.outer, buf, 0, 0, []⟩

/-- One step leads from the first point to the second. -/
def Steps (p q : Point) : Prop := step p = pure (.next q)

/-- The points a run of `decode` comes through. -/
def Reaches (buf : List UInt8) (p : Point) : Prop := ReflTransGen Steps (start buf) p

/-! ### The checks of one step -/

private theorem maskChecked_eq {n : Nat} (hn : n < 64) : maskChecked n = pure (shl64 1 n - 1) := by
  have hpos : 1 ≤ shl64 1 n := by
    rw [shl64_one_eq hn]
    exact Nat.two_pow_pos n
  rw [maskChecked, require_bind hn, require_bind hpos]

private theorem matchFromChecked_eq {acc nbits : Nat} (hn : nbits < 64) (es : List (Nat × Nat)) : ∀ sym : Nat,
    matchFromChecked acc nbits sym es = pure (matchFrom acc nbits sym es) := by
  induction es with
  | nil => intro sym; rfl
  | cons e es ih =>
    intro sym
    obtain ⟨code, len⟩ := e
    rw [matchFromChecked, matchFrom]
    by_cases hle : len ≤ nbits
    · rw [if_pos hle, if_pos hle, require_bind (show nbits - len < 64 by omega), maskChecked_eq (by omega), pure_bind]
      dsimp only
      split
      · rfl
      · exact ih _
    · rw [if_neg hle, if_neg hle, ih]

/-- No check of `match_symbol` fails on fewer than 64 bits. -/
private theorem matchSymbolChecked_eq {acc nbits : Nat} (hn : nbits < 64) :
    matchSymbolChecked acc nbits = pure (matchSymbol acc nbits) := matchFromChecked_eq hn table 0

/-! ### The invariant -/

/-- What holds at each place.  Between two assignments the variable assigned first is ahead of the other one. -/
def Bounded (p : Point) : Prop :=
  match p.place with
  | .outer => p.nbits ≤ 29 ∧ p.acc < 2 ^ p.nbits
  | .pushed => p.nbits ≤ 29 ∧ p.acc < 2 ^ (p.nbits + 8)
  | .inner => p.nbits ≤ 37 ∧ p.acc < 2 ^ p.nbits
  | .popped => p.nbits ≤ 37 ∧ p.acc < 2 ^ 37

/-- What `decode` computes from the `for` on. -/
def fromOuter (buf : List UInt8) (acc nbits : Nat) (out : List UInt8) : Except String (List UInt8) :=
  match decodeBytes buf acc nbits out with
  | .error e => .error e
  | .ok (out, acc, nbits) =>
    if 8 ≤ nbits then .error "Huffman 数据结尾前存在未解码的完整字节"
    else if 0 < nbits then
      let paddingMask := shl64 1 nbits - 1
      if acc &&& paddingMask ≠ paddingMask then .error "Huffman padding 不是全 1，数据可能损坏"
      else .ok out
    else .ok out

/-- What `decode` computes from the `while let` on. -/
def fromInner (buf : List UInt8) (acc nbits : Nat) (out : List UInt8) : Except String (List UInt8) :=
  match takeSymbols acc nbits out with
  | .error e => .error e
  | .ok (out, acc, nbits) => fromOuter buf acc nbits out

/-- What `decode` computes from a point on. -/
def remaining (p : Point) : Except String (List UInt8) :=
  match p.place with
  | .outer => fromOuter p.buf p.acc p.nbits p.out
  | .pushed => fromInner p.buf p.acc (p.nbits + 8) p.out
  | .inner => fromInner p.buf p.acc p.nbits p.out
  | .popped => fromInner p.buf (p.acc &&& (shl64 1 p.nbits - 1)) p.nbits p.out

/-- A bound on the steps ahead: a byte brings at most eight bits to the 29 left over, and each symbol takes two
steps and at least one bit. -/
def weight (p : Point) : Nat :=
  100 * p.buf.length +
    match p.place with
    | .outer => 0
    | .pushed => 2 * (p.nbits + 8) + 2
    | .inner => 2 * p.nbits + 1
    | .popped => 2 * p.nbits + 2

private theorem fromOuter_cons (byte : UInt8) (buf : List UInt8) {acc nbits : Nat} (hn : nbits ≤ 29)
    (out : List UInt8) :
    fromOuter (byte :: buf) acc nbits out = fromInner buf (shl64 acc 8 ||| byte.toNat) (nbits + 8) out := by
  have hcount : (nbits + 8) % 2 ^ 32 = nbits + 8 := Nat.mod_eq_of_lt (by omega)
  rw [fromOuter, decodeBytes, fromInner, hcount]
  cases takeSymbols (shl64 acc 8 ||| byte.toNat) (nbits + 8) out with
  | error e => rfl
  | ok r => rfl

/-- The step goes on to a point that keeps the bounds and the result and is nearer to the end. -/
def Advances (p : Point) : Prop :=
  ∃ q, Steps p q ∧ Bounded q ∧ remaining q = remaining p ∧ weight q < weight p

/-- The step ends the run with what `decode` computes from the point on. -/
def Ends (p : Point) : Prop := step p = Checked.ofExcept ((remaining p).map Round.stop)

private theorem outer_spec {buf : List UInt8} {acc nbits : Nat} {out : List UInt8}
    (h : Bounded ⟨.outer, buf, acc, nbits, out⟩) :
    Advances ⟨.outer, buf, acc, nbits, out⟩ ∨ Ends ⟨.outer, buf, acc, nbits, out⟩ := by
  obtain ⟨hn, hacc⟩ : nbits ≤ 29 ∧ acc < 2 ^ nbits := h
  cases buf with
  | nil =>
    right
    simp only [Ends, step, remaining, fromOuter, decodeBytes]
    by_cases h8 : 8 ≤ nbits
    · rw [if_pos h8, if_pos h8]
      rfl
    · rw [if_neg h8, if_neg h8]
      by_cases h0 : 0 < nbits
      · rw [if_pos h0, if_pos h0, maskChecked_eq (by omega), pure_bind]
        split <;> rfl
      · rw [if_neg h0, if_neg h0]
        rfl
  | cons byte buf =>
    left
    have hlt : acc < 2 ^ 29 := Nat.lt_of_lt_of_le hacc (Nat.pow_le_pow_right (by decide) hn)
    have hfits : acc <<< 8 < 2 ^ 64 := by rw [Nat.shiftLeft_eq]; omega
    have hpush := shift_in hacc (by omega) byte
    refine ⟨⟨.pushed, buf, shl64 acc 8 ||| byte.toNat, nbits, out⟩, ?_, ⟨hn, ?_⟩, ?_, ?_⟩
    · simp only [Steps, step]
      rw [require_bind hfits]
    · have := byte.toNat_lt
      simp only [hpush, Nat.pow_add]
      omega
    · exact (fromOuter_cons byte buf hn out).symm
    · simp only [weight, List.length_cons]
      omega

private theorem pushed_spec {buf : List UInt8} {acc nbits : Nat} {out : List UInt8}
    (h : Bounded ⟨.pushed, buf, acc, nbits, out⟩) : Advances ⟨.pushed, buf, acc, nbits, out⟩ := by
  obtain ⟨hn, hacc⟩ : nbits ≤ 29 ∧ acc < 2 ^ (nbits + 8) := h
  refine ⟨⟨.inner, buf, acc, nbits + 8, out⟩, ?_, ⟨by dsimp only; omega, hacc⟩, rfl, by simp only [weight]; omega⟩
  simp only [Steps, step]
  rw [require_bind (show nbits + 8 < 2 ^ 32 by omega)]

private theorem inner_spec {buf : List UInt8} {acc nbits : Nat} {out : List UInt8}
    (h : Bounded ⟨.inner, buf, acc, nbits, out⟩) :
    Advances ⟨.inner, buf, acc, nbits, out⟩ ∨ Ends ⟨.inner, buf, acc, nbits, out⟩ := by
  obtain ⟨hn, hacc⟩ : nbits ≤ 37 ∧ acc < 2 ^ nbits := h
  have hchecked : matchSymbolChecked acc nbits = pure (matchSymbol acc nbits) := matchSymbolChecked_eq (by omega)
  cases hm : matchSymbol acc nbits with
  | none =>
    -- no code word starts the bits, so there are fewer than 30
    have hstuck := matchSymbol_none hacc (by omega) hm
    have h30 : nbits < 30 := Nat.lt_of_not_le fun hle => not_stuck_of_le hacc hle hstuck
    left
    refine ⟨⟨.outer, buf, acc, nbits, out⟩, ?_, ⟨by dsimp only; omega, hacc⟩, ?_, by simp only [weight]; omega⟩
    · simp only [Steps, step, hchecked, hm, pure_bind]
    · simp only [remaining, fromInner, takeSymbols_eq acc, hm]
  | some m =>
    obtain ⟨sym, len⟩ := m
    obtain ⟨hpos, hle⟩ := matchSymbol_len hm
    by_cases heos : sym = 256
    · right
      simp only [Ends, step, remaining, fromInner, takeSymbols_eq acc, hchecked, hm, heos, pure_bind]
      rfl
    · left
      refine ⟨⟨.popped, buf, acc, nbits - len, out ++ [UInt8.ofNat sym]⟩, ?_, ⟨by dsimp only; omega, ?_⟩, ?_, ?_⟩
      · simp only [Steps, step, hchecked, hm, pure_bind, heos, ↓reduceIte]
        rw [require_bind hle]
      · exact Nat.lt_of_lt_of_le hacc (Nat.pow_le_pow_right (by decide) hn)
      · simp only [remaining, fromInner, takeSymbols_eq acc nbits, hm, heos, ↓reduceIte]
      · simp only [weight]
        omega

private theorem popped_spec {buf : List UInt8} {acc nbits : Nat} {out : List UInt8}
    (h : Bounded ⟨.popped, buf, acc, nbits, out⟩) : Advances ⟨.popped, buf, acc, nbits, out⟩ := by
  obtain ⟨hn, -⟩ : nbits ≤ 37 ∧ acc < 2 ^ 37 := h
  refine ⟨⟨.inner, buf, acc &&& (shl64 1 nbits - 1), nbits, out⟩, ?_, ⟨hn, ?_⟩, rfl, by simp only [weight]; omega⟩
  · simp only [Steps, step]
    rw [maskChecked_eq (by omega), pure_bind]
  · dsimp only
    rw [mask_eq (by omega)]
    exact Nat.mod_lt _ (Nat.two_pow_pos nbits)

/-- A step from a point within the bounds goes on within them or ends the run. -/
private theorem step_spec {p : Point} (h : Bounded p) : Advances p ∨ Ends p := by
  obtain ⟨place, buf, acc, nbits, out⟩ := p
  cases place with
  | outer => exact outer_spec h
  | pushed => exact .inl (pushed_spec h)
  | inner => exact inner_spec h
  | popped => exact .inl (popped_spec h)

/-! ### Runs -/

private theorem safe_step {p : Point} (h : Bounded p) : Safe (step p) := by
  rcases step_spec h with ⟨q, hq, -⟩ | hend
  · rw [hq]
    exact safe_pure _
  · rw [hend]
    exact safe_ofExcept _

private theorem Steps.unique {p q r : Point} (hq : Steps p q) (hr : Steps p r) : q = r := by
  have h : (some (.ok (.next q)) : Option (Except String (Round Point (List UInt8)))) = some (.ok (.next r)) :=
    hq.symm.trans hr
  cases h
  rfl

private theorem Ends.not_steps {p q : Point} (hend : Ends p) (hq : Steps p q) : False := by
  have h : some ((remaining p).map Round.stop) = some (Except.ok (Round.next q)) := hend.symm.trans hq
  cases hr : remaining p with
  | error e => rw [hr] at h; cases h
  | ok out => rw [hr] at h; cases h

/-- What one step keeps. -/
private theorem steps_keeps {p q : Point} (h : Bounded p) (hs : Steps p q) :
    Bounded q ∧ remaining q = remaining p := by
  rcases step_spec h with ⟨q', hq', hb, hr, -⟩ | hend
  · rw [hs.unique hq']
    exact ⟨hb, hr⟩
  · exact (hend.not_steps hs).elim

/-- What a run keeps. -/
private theorem reaches_keeps {buf : List UInt8} {p : Point} (h : Reaches buf p) :
    Bounded p ∧ remaining p = decode buf := by
  induction h with
  | refl => exact ⟨⟨Nat.zero_le _, Nat.one_pos⟩, rfl⟩
  | tail _ hs ih =>
    obtain ⟨hb, hr⟩ := steps_keeps ih.1 hs
    exact ⟨hb, hr.trans ih.2⟩

/-- From every point within the bounds the run comes to its end. -/
private theorem comes_to_end {p : Point} (h : Bounded p) :
    ∃ q, ReflTransGen Steps p q ∧ step q = Checked.ofExcept ((remaining p).map Round.stop) := by
  induction hw : weight p using Nat.strongRecOn generalizing p with
  | ind n ih =>
    rcases step_spec h with ⟨q, hq, hb, hr, hlt⟩ | hend
    · obtain ⟨r, hqr, hend⟩ := ih (weight q) (hw ▸ hlt) hb rfl
      exact ⟨r, hqr.head hq, hr ▸ hend⟩
    · exact ⟨p, .refl, hend⟩

/-- Every string of 30 bits starts with a code of the table. -/
private theorem table_covers {v : Nat} (hv : v < 2 ^ 30) : ∃ e ∈ table, e.2 ≤ 30 ∧ v / 2 ^ (30 - e.2) = e.1 := by
  have hstuck := not_stuck_of_le hv (Nat.le_refl 30)
  simp only [Wire.PrefixCode.Stuck, not_forall, not_not] at hstuck
  obtain ⟨a, ha⟩ := hstuck
  exact ⟨entry a, entry_mem a, entry_len_le a, (Wire.bits_prefix_iff (entry_len_le a) (entry_lt a) hv).1 ha⟩

/-- The accumulator of `decode` is bounded on every input.  Every 30-bit string has a code of the table as a
prefix.  At every point there are at most 37 bits, and at most 29 at the `for`; where a loop is tested, `acc` has
no bits above these, and between the two assignments that bring a byte or take a symbol it has at most the eight
more or stays below `2 ^ 37`. No step loses a bit, shifts by 64 or underflows, and every point leads to the end,
with the result of `decode`. -/
theorem decode_bounded (buf : List UInt8) :
    (∀ v, v < 2 ^ 30 → ∃ e ∈ table, e.2 ≤ 30 ∧ v / 2 ^ (30 - e.2) = e.1) ∧
    ∀ p, Reaches buf p →
      p.nbits ≤ 37 ∧ p.acc < 2 ^ 37 ∧
      (p.place = .outer → p.nbits ≤ 29) ∧
      (p.place = .outer ∨ p.place = .inner → p.acc < 2 ^ p.nbits) ∧
      (p.place = .pushed → p.acc < 2 ^ (p.nbits + 8)) ∧
      Safe (step p) ∧
      ∃ q, ReflTransGen Steps p q ∧ step q = Checked.ofExcept ((decode buf).map Round.stop) := by
  refine ⟨fun v hv => table_covers hv, ?_⟩
  intro p hp
  obtain ⟨hb, hr⟩ := reaches_keeps hp
  have hend := comes_to_end hb
  rw [hr] at hend
  have hpow : ∀ {n : Nat}, n ≤ 37 → 2 ^ n ≤ 2 ^ 37 := fun h => Nat.pow_le_pow_right (by decide) h
  have hsafe := safe_step hb
  obtain ⟨place, rest, acc, nbits, out⟩ := p
  cases place with
  | outer =>
    obtain ⟨hn, hacc⟩ : nbits ≤ 29 ∧ acc < 2 ^ nbits := hb
    exact ⟨by dsimp only; omega, Nat.lt_of_lt_of_le hacc (hpow (by omega)), fun _ => hn, fun _ => hacc, nofun,
      hsafe, hend⟩
  | pushed =>
    obtain ⟨hn, hacc⟩ : nbits ≤ 29 ∧ acc < 2 ^ (nbits + 8) := hb
    exact ⟨by dsimp only; omega, Nat.lt_of_lt_of_le hacc (hpow (by omega)), nofun, nofun, fun _ => hacc, hsafe, hend⟩
  | inner =>
    obtain ⟨hn, hacc⟩ : nbits ≤ 37 ∧ acc < 2 ^ nbits := hb
    exact ⟨hn, Nat.lt_of_lt_of_le hacc (hpow hn), nofun, fun _ => hacc, nofun, hsafe, hend⟩
  | popped =>
    obtain ⟨hn, hacc⟩ : nbits ≤ 37 ∧ acc < 2 ^ 37 := hb
    exact ⟨hn, hacc, nofun, nofun, nofun, hsafe, hend⟩

/-- Between the two assignments of a byte `acc` has bits that `nbits` does not count yet. -/
theorem acc_ahead_of_nbits : ∃ p, Reaches [0xff] p ∧ p.place = .pushed ∧ p.acc = 255 ∧ p.nbits = 0 :=
  ⟨⟨.pushed, [], 255, 0, []⟩, .single rfl, rfl, rfl, rfl⟩

end WarpSocks.Masque.Huffman
