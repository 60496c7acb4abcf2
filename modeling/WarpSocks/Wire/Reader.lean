/-!
# Byte streams read in pieces

A `Reader` is a byte stream as its consumer meets it: the bytes still to come, a segmentation that decides how many
of them each read hands over, and how the stream ends, cleanly or with an error.  `read` returns at least one byte
while there are any, never more than it was asked for, and `readExact` repeats it.  What `readExact` returns does
not depend on the segmentation (`readExact_of_le`, `readExact_of_lt`).  A `Writer` takes bytes until it fails.
-/

namespace Wire

/-- How many bytes the successive reads may return; each read returns at least one. -/
structure Segmentation where
  size : Nat → Nat
  pos : ∀ i, 0 < size i

/-- The segmentation left after one read. -/
def Segmentation.next (s : Segmentation) : Segmentation := ⟨fun i => s.size (i + 1), fun i => s.pos (i + 1)⟩

/-- A stream with the bytes still to be read; `fault` is the error that ends it, `none` for a clean end. -/
structure Reader (ε : Type) where
  bytes : List UInt8
  seg : Segmentation
  fault : Option ε

namespace Reader

variable {ε : Type}

/-- One read into a buffer of `n` bytes.  The empty result is the end of the stream, or an empty buffer. -/
def read (n : Nat) (r : Reader ε) : Except ε (List UInt8) × Reader ε :=
  if n = 0 then (.ok [], r)
  else if r.bytes = [] then
    match r.fault with
    | none => (.ok [], r)
    | some e => (.error e, r)
  else
    let k := min (r.seg.size 0) n
    (.ok (r.bytes.take k), { r with bytes := r.bytes.drop k, seg := r.seg.next })

theorem read_of_ne_nil {n : Nat} {r : Reader ε} (hn : 0 < n) (hr : r.bytes ≠ []) :
    ∃ x y, x ≠ [] ∧ x.length ≤ n ∧ r.bytes = x ++ y ∧
      ∃ r' : Reader ε, r.read n = (.ok x, r') ∧ r'.bytes = y ∧ r'.fault = r.fault := by
  have hk : 0 < min (r.seg.size 0) n := by have := r.seg.pos 0; omega
  refine ⟨r.bytes.take (min (r.seg.size 0) n), r.bytes.drop (min (r.seg.size 0) n), ?_, ?_, by simp, ?_⟩
  · simp only [ne_eq, List.take_eq_nil_iff, not_or]
    exact ⟨by omega, hr⟩
  · rw [List.length_take]; omega
  · unfold read
    rw [if_neg (by omega), if_neg hr]
    exact ⟨_, rfl, rfl, rfl⟩

/-- A read that asks for no more than `x` returns a non-empty prefix of `x`. -/
theorem read_prefix {n : Nat} {r : Reader ε} {x y : List UInt8} (hr : r.bytes = x ++ y) (hn : 0 < n)
    (hx : n ≤ x.length) :
    ∃ b bs w, x = b :: bs ++ w ∧ bs.length + 1 ≤ n ∧
      ∃ r' : Reader ε, r.read n = (.ok (b :: bs), r') ∧ r'.bytes = w ++ y ∧ r'.fault = r.fault := by
  have hne : r.bytes ≠ [] := by
    intro h0
    rw [hr, List.append_eq_nil_iff] at h0
    rw [h0.1, List.length_nil] at hx
    omega
  obtain ⟨u, v, hu, hun, huv, r', hread, hb, hf⟩ := read_of_ne_nil hn hne
  obtain ⟨b, bs, rfl⟩ := List.exists_cons_of_ne_nil hu
  have hle : (b :: bs).length ≤ x.length := Nat.le_trans hun hx
  have hu' : b :: bs = x.take (bs.length + 1) := by
    have := congrArg (List.take (b :: bs).length) (hr.symm.trans huv)
    rw [List.take_left, List.take_append_of_le_length hle] at this
    exact this.symm
  have hv : v = x.drop (bs.length + 1) ++ y := by
    have := congrArg (List.drop (b :: bs).length) (hr.symm.trans huv)
    rw [List.drop_left, List.drop_append_of_le_length hle] at this
    exact this.symm
  refine ⟨b, bs, x.drop (bs.length + 1), ?_, hun, r', hread, hb.trans hv, hf⟩
  conv => lhs; rw [← List.take_append_drop (bs.length + 1) x, ← hu']

theorem read_of_nil {n : Nat} {r : Reader ε} (hn : 0 < n) (hr : r.bytes = []) :
    r.read n = (match r.fault with | none => .ok [] | some e => .error e, r) := by
  unfold read
  rw [if_neg (by omega), if_pos hr]
  cases r.fault <;> rfl

theorem length_read_le (n : Nat) (r : Reader ε) : (r.read n).2.bytes.length ≤ r.bytes.length := by
  unfold read
  split
  · exact Nat.le_refl _
  · split
    · split <;> exact Nat.le_refl _
    · simp

theorem length_read_lt {n : Nat} {r r' : Reader ε} {b : UInt8} {bs : List UInt8}
    (h : r.read n = (.ok (b :: bs), r')) : r'.bytes.length < r.bytes.length := by
  unfold read at h
  split at h
  · simp at h
  · split at h
    · split at h <;> simp at h
    · rename_i hn hne
      have hpos := r.seg.pos 0
      have := List.length_pos_iff.2 hne
      simp only [Prod.mk.injEq] at h
      rw [← h.2, List.length_drop]
      omega

/-- What a read returns is taken from the front. -/
theorem bytes_of_read_cons {n : Nat} {r r' : Reader ε} {b : UInt8} {bs : List UInt8}
    (h : r.read n = (.ok (b :: bs), r')) : r.bytes = b :: bs ++ r'.bytes := by
  unfold read at h
  split at h
  · simp at h
  · split at h
    · split at h <;> simp at h
    · simp only [Prod.mk.injEq, Except.ok.injEq] at h
      obtain ⟨hfront, rfl⟩ := h
      rw [← hfront, List.take_append_drop]

/-- A read that returns nothing has come to the end. -/
theorem bytes_of_read_nil {n : Nat} (hn : 0 < n) {r r' : Reader ε} (h : r.read n = (.ok [], r')) : r.bytes = [] := by
  by_cases hr : r.bytes = []
  · exact hr
  · obtain ⟨x, y, hx, -, -, r'', hread, -⟩ := read_of_ne_nil hn hr
    rw [hread] at h
    cases h
    exact absurd rfl hx

theorem bytes_of_read_error {n : Nat} {r r' : Reader ε} {e : ε} (h : r.read n = (.error e, r')) : r.bytes = [] := by
  unfold read at h
  split at h
  · cases h
  · split at h
    · assumption
    · cases h

/-- Reads until `n` bytes have arrived; `eof` is the error for a stream that ends cleanly before that. -/
def readExact (eof : ε) (n : Nat) (r : Reader ε) : Except ε (List UInt8) × Reader ε :=
  if n = 0 then (.ok [], r)
  else
    match r.read n with
    | (.error e, r') => (.error e, r')
    | (.ok [], r') => (.error eof, r')
    | (.ok (b :: bs), r') =>
      match readExact eof (n - (bs.length + 1)) r' with
      | (.error e, r'') => (.error e, r'')
      | (.ok rest, r'') => (.ok (b :: bs ++ rest), r'')
termination_by n

theorem length_readExact_le (eof : ε) (n : Nat) : ∀ r : Reader ε,
    (r.readExact eof n).2.bytes.length ≤ r.bytes.length := by
  induction n using Nat.strongRecOn with
  | ind n ih =>
    intro r
    rw [readExact]
    split
    · exact Nat.le_refl _
    · have hle := length_read_le n r
      split
      · rename_i h; rw [h] at hle; exact hle
      · rename_i h; rw [h] at hle; exact hle
      · rename_i b bs r' h
        rw [h] at hle
        have := ih (n - (bs.length + 1)) (by omega) r'
        split <;> (rename_i h'; rw [h'] at this; exact Nat.le_trans this hle)

theorem length_readExact {eof : ε} {n : Nat} {r r' : Reader ε} {xs : List UInt8}
    (h : r.readExact eof n = (.ok xs, r')) : xs.length = n := by
  induction n using Nat.strongRecOn generalizing r r' xs with
  | ind n ih =>
    rw [readExact] at h
    split at h
    · cases h
      exact Eq.symm (by assumption)
    · rename_i hn
      split at h
      · nomatch h
      · nomatch h
      · rename_i b bs r₁ hread
        have hle : bs.length + 1 ≤ n := by
          unfold read at hread
          split at hread
          · nomatch hread
          · split at hread
            · split at hread <;> nomatch hread
            · have := congrArg (fun p => (p.1.toOption.getD []).length) hread
              simp only [Except.toOption, Option.getD_some, List.length_take, List.length_cons] at this
              omega
        split at h
        · nomatch h
        · rename_i rest r₂ hex
          cases h
          have := ih (n - (bs.length + 1)) (by omega) hex
          simp only [List.cons_append, List.length_cons, List.length_append]
          omega

/-- Enough bytes: `readExact` returns the next `n` of them and leaves the rest. -/
theorem readExact_of_le (eof : ε) (x : List UInt8) : ∀ (y : List UInt8) (r : Reader ε), r.bytes = x ++ y →
    ∃ r' : Reader ε, r.readExact eof x.length = (.ok x, r') ∧ r'.bytes = y ∧ r'.fault = r.fault := by
  induction h : x.length using Nat.strongRecOn generalizing x with
  | ind n ih =>
    intro y r hr
    rw [readExact]
    by_cases hn : n = 0
    · rw [if_pos hn]
      obtain rfl : x = [] := List.length_eq_zero_iff.1 (by omega)
      exact ⟨r, rfl, hr, rfl⟩
    · rw [if_neg hn]
      obtain ⟨b, bs, w, rfl, hle, r', hread, hb, hf⟩ := read_prefix hr (n := n) (by omega) (by omega)
      simp only [List.length_append, List.length_cons] at h
      obtain ⟨r'', hex, hb', hf'⟩ := ih w.length (by omega) w rfl y r' hb
      rw [hread]
      simp only [show n - (bs.length + 1) = w.length by omega, hex]
      exact ⟨r'', rfl, hb', hf'.trans hf⟩

/-- Too few bytes: `readExact` fails, with the error that ends the stream if there is one. -/
theorem readExact_of_lt (eof : ε) (n : Nat) : ∀ r : Reader ε, r.bytes.length < n →
    ∃ r' : Reader ε, r.readExact eof n = (.error (r.fault.getD eof), r') := by
  induction n using Nat.strongRecOn with
  | ind n ih =>
    intro r hr
    rw [readExact, if_neg (by omega)]
    by_cases hne : r.bytes = []
    · rw [read_of_nil (by omega) hne]
      cases r.fault <;> exact ⟨r, rfl⟩
    · obtain ⟨u, v, hu, hun, huv, r', hread, hb, hf⟩ := read_of_ne_nil (n := n) (by omega) hne
      obtain ⟨b, bs, rfl⟩ := List.exists_cons_of_ne_nil hu
      have hlen := congrArg List.length huv
      simp only [List.length_append, List.length_cons] at hlen hun
      obtain ⟨r'', hex⟩ := ih (n - (bs.length + 1)) (by omega) r' (by rw [hb]; omega)
      rw [hread]
      simp only [hex, hf]
      exact ⟨r'', rfl⟩

/-- The stream whose reads return the given non-empty pieces one by one, if the buffers are large enough. -/
def ofChunks (cs : List (List UInt8)) : Reader ε :=
  ⟨cs.flatten, ⟨fun i => max 1 (cs.getD i []).length, fun _ => by omega⟩, none⟩

theorem read_ofChunks_nil {n : Nat} : (ofChunks [] : Reader ε).read n = (.ok [], ofChunks []) := by
  unfold read
  split <;> rfl

theorem read_ofChunks_cons {n : Nat} {c : List UInt8} (cs : List (List UInt8)) (hc : c ≠ []) (hn : c.length ≤ n) :
    (ofChunks (c :: cs) : Reader ε).read n = (.ok c, ofChunks cs) := by
  have hpos := List.length_pos_iff.2 hc
  have hk : min (max 1 c.length) n = c.length := by omega
  have hne : (ofChunks (c :: cs) : Reader ε).bytes ≠ [] := by simp [ofChunks, hc]
  unfold read
  rw [if_neg (by omega), if_neg hne]
  simp only [ofChunks, Segmentation.next, List.flatten_cons, List.getD_cons_zero, List.getD_cons_succ, hk,
    List.take_left, List.drop_left]

end Reader

/-- A sink of bytes; `fault = some (k, e)` says that it fails with `e` after taking `k` more bytes. -/
structure Writer (ε : Type) where
  written : List UInt8
  fault : Option (Nat × ε)

namespace Writer

variable {ε : Type}

/-- Writes a whole buffer, or as much of it as the sink takes before it fails. -/
def writeAll (buf : List UInt8) (w : Writer ε) : Except ε Unit × Writer ε :=
  match w.fault with
  | none => (.ok (), { w with written := w.written ++ buf })
  | some (k, e) =>
    if buf.length ≤ k then (.ok (), ⟨w.written ++ buf, some (k - buf.length, e)⟩)
    else (.error e, ⟨w.written ++ buf.take k, some (0, e)⟩)

theorem writeAll_of_none {w : Writer ε} (h : w.fault = none) (buf : List UInt8) :
    w.writeAll buf = (.ok (), ⟨w.written ++ buf, none⟩) := by
  simp [writeAll, h]

end Writer

end Wire
