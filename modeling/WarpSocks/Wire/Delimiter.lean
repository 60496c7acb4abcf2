/-!
# Delimiters in a growing buffer

A block of a stream that ends with the first occurrence of a delimiter (`EndsAtFirst`), and a search for the
delimiter in what has arrived of the stream.  The search finds nothing before the block has arrived
(`position_of_lt`), and its end from then on, whatever arrives behind it (`position_of_le`).  That a block ends so
is seen by a search in the block alone (`endsAtFirst_of_position`).
-/

namespace Wire

variable {α : Type}

/-- The contiguous parts of length `n`, from left to right. -/
def windows (n : Nat) (xs : List α) : List (List α) :=
  (List.range (xs.length + 1 - n)).map fun i => (xs.drop i).take n

theorem length_windows (n : Nat) (xs : List α) : (windows n xs).length = xs.length + 1 - n := by simp [windows]

theorem getElem_windows {n : Nat} {xs : List α} {i : Nat} (h : i < (windows n xs).length) :
    (windows n xs)[i] = (xs.drop i).take n := by simp [windows]

/-- The block ends with the delimiter, which does not occur in it before. -/
structure EndsAtFirst (delim block : List α) : Prop where
  ends : ∃ front, block = front ++ delim
  first : ∀ front back, block = front ++ delim ++ back → back = []

theorem EndsAtFirst.length_le {delim block : List α} (h : EndsAtFirst delim block) : delim.length ≤ block.length := by
  obtain ⟨front, rfl⟩ := h.ends
  simp

/-- An occurrence of the delimiter in the block is its end. -/
theorem EndsAtFirst.eq_of_take {delim block : List α} (h : EndsAtFirst delim block) {i : Nat}
    (hi : (block.drop i).take delim.length = delim) : block.length ≤ i + delim.length := by
  have hsplit : block = block.take i ++ delim ++ block.drop (i + delim.length) := by
    conv => lhs; rw [← List.take_append_drop i block, ← List.take_append_drop delim.length (block.drop i), hi]
    rw [List.drop_drop, List.append_assoc]
  exact List.drop_eq_nil_iff.1 (h.first _ _ hsplit)

variable {delim block rest buf more : List α}

/-- A window of the buffer inside of the block is a window of the block. -/
private theorem window_eq (hstream : buf ++ more = block ++ rest) {i : Nat} (hbuf : i + delim.length ≤ buf.length)
    (hblock : i + delim.length ≤ block.length) :
    (buf.drop i).take delim.length = (block.drop i).take delim.length := by
  have hwindow := congrArg (fun xs => (xs.drop i).take delim.length) hstream
  rwa [List.drop_append_of_le_length (by omega), List.drop_append_of_le_length (by omega),
    List.take_append_of_le_length (by rw [List.length_drop]; omega),
    List.take_append_of_le_length (by rw [List.length_drop]; omega)] at hwindow

section Search

variable [DecidableEq α]

/-- Where the delimiter first occurs. -/
def position (delim xs : List α) : Option Nat := (windows delim.length xs).findIdx? fun w => decide (w = delim)

theorem position_of_lt (h : EndsAtFirst delim block) (hstream : buf ++ more = block ++ rest)
    (hlt : buf.length < block.length) : position delim buf = none := by
  unfold position
  rw [List.findIdx?_eq_none_iff]
  intro w hw
  obtain ⟨i, hi, rfl⟩ := List.getElem_of_mem hw
  rw [getElem_windows]
  rw [length_windows] at hi
  refine decide_eq_false fun hdelim => ?_
  rw [window_eq hstream (by omega) (by omega)] at hdelim
  have := h.eq_of_take hdelim
  omega

theorem position_of_le (h : EndsAtFirst delim block) (hstream : buf ++ more = block ++ rest)
    (hle : block.length ≤ buf.length) : position delim buf = some (block.length - delim.length) := by
  have hdelim := h.length_le
  have hi : block.length - delim.length < (windows delim.length buf).length := by rw [length_windows]; omega
  unfold position
  rw [List.findIdx?_eq_some_iff_getElem]
  refine ⟨hi, ?_, ?_⟩
  · rw [getElem_windows, window_eq hstream (by omega) (by omega)]
    obtain ⟨front, rfl⟩ := h.ends
    simp
  · intro j hj
    rw [getElem_windows, window_eq hstream (by omega) (by omega)]
    intro hfound
    have := h.eq_of_take (of_decide_eq_true hfound)
    omega

theorem endsAtFirst_of_position (h : position delim block = some (block.length - delim.length)) :
    EndsAtFirst delim block := by
  unfold position at h
  obtain ⟨hi, hfound, hfirst⟩ := List.findIdx?_eq_some_iff_getElem.1 h
  have hlen := hi
  rw [length_windows] at hlen
  rw [getElem_windows] at hfound
  refine ⟨⟨block.take (block.length - delim.length), ?_⟩, fun front back heq => ?_⟩
  · have htail : block.drop (block.length - delim.length) = delim := by
      have htake := of_decide_eq_true hfound
      rwa [List.take_of_length_le (by rw [List.length_drop]; omega)] at htake
    have hsplit := List.take_append_drop (block.length - delim.length) block
    rw [htail] at hsplit
    exact hsplit.symm
  · -- an occurrence further to the front would have been found
    have htotal := congrArg List.length heq
    simp only [List.length_append] at htotal
    refine Classical.byContradiction fun hback => ?_
    have hpos := List.length_pos_iff.2 hback
    refine hfirst front.length (by omega) (decide_eq_true ?_)
    rw [getElem_windows, heq, List.append_assoc, List.drop_left, List.take_left]

end Search

end Wire
