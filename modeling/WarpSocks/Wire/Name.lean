/-!
# Names as sequences of labels

A label is its length in one octet and its bytes; the two top bits of that octet are clear.  A name is a sequence
of labels that ends with the empty label of the root, or with a pointer to another place, whose two top bits are
set. `readLabels` reads the labels in front of the root, and returns what was written (`readLabels_wire`).  Labels
are one octet longer than the text they spell (`length_wireLabels`).
-/

namespace Wire

/-- A label of 1 to 63 bytes. -/
structure Label where
  bytes : List UInt8
  length_pos : 0 < bytes.length
  length_le : bytes.length ≤ 63

/-- How a name ends. -/
inductive NameEnd where
  | root
  | pointer (hi lo : UInt8) (tag : hi &&& 0xC0 = 0xC0)

/-- A name: labels, and its end. -/
structure Name where
  labels : List Label
  last : NameEnd

namespace Label

/-- The length octet. -/
def size (l : Label) : UInt8 := UInt8.ofNat l.bytes.length

def wire (l : Label) : List UInt8 := l.size :: l.bytes

theorem toNat_size (l : Label) : l.size.toNat = l.bytes.length := by
  have hlt : l.bytes.length < 256 := Nat.lt_of_le_of_lt l.length_le (by decide)
  exact UInt8.toNat_ofNat_of_lt' hlt

theorem size_ne_zero (l : Label) : l.size ≠ 0 := by
  intro h
  have hpos := l.length_pos
  have hzero : l.size.toNat = 0 := congrArg UInt8.toNat h
  rw [toNat_size] at hzero
  omega

/-- A label is not taken for a pointer. -/
theorem size_and_ne (l : Label) : l.size &&& 0xC0 ≠ 0xC0 := by
  intro h
  have hle := l.length_le
  have hand : l.size.toNat &&& 0xC0 = 0xC0 := congrArg UInt8.toNat h
  have hmax : l.size.toNat &&& 0xC0 ≤ l.size.toNat := Nat.and_le_left
  rw [toNat_size] at hand hmax
  omega

end Label

def NameEnd.wire : NameEnd → List UInt8
  | .root => [0]
  | .pointer hi lo _ => [hi, lo]

/-- The labels one behind the other. -/
def wireLabels (labels : List Label) : List UInt8 := labels.flatMap Label.wire

@[simp] theorem wireLabels_nil : wireLabels [] = [] := rfl

@[simp] theorem wireLabels_cons (l : Label) (ls : List Label) :
    wireLabels (l :: ls) = l.size :: (l.bytes ++ wireLabels ls) := rfl

def Name.wire (n : Name) : List UInt8 := wireLabels n.labels ++ n.last.wire

/-- The labels in front of the root, and what stands behind it. -/
def readLabels : List UInt8 → Option (List Label × List UInt8)
  | [] => none
  | n :: rest =>
    if n = 0 then some ([], rest)
    else if h : 0 < n.toNat ∧ n.toNat ≤ 63 ∧ n.toNat ≤ rest.length then do
      let (labels, rest') ← readLabels (rest.drop n.toNat)
      return (⟨rest.take n.toNat, by simp; omega, by simp; omega⟩ :: labels, rest')
    else none
termination_by bytes => bytes.length
decreasing_by simp only [List.length_drop, List.length_cons]; omega

theorem readLabels_wire (labels : List Label) (rest : List UInt8) :
    readLabels (wireLabels labels ++ 0 :: rest) = some (labels, rest) := by
  induction labels with
  | nil => simp [readLabels]
  | cons l ls ih =>
    have hcheck : 0 < l.bytes.length ∧ l.bytes.length ≤ 63 ∧
        l.bytes.length ≤ (l.bytes ++ (wireLabels ls ++ 0 :: rest)).length :=
      ⟨l.length_pos, l.length_le, by simp⟩
    simp only [wireLabels_cons, List.cons_append, List.append_assoc]
    rw [readLabels, if_neg l.size_ne_zero]
    simp only [l.toNat_size, List.drop_left, List.take_left, ih]
    rw [dif_pos hcheck]
    rfl

/-- Each label has one octet more than its bytes; between the labels of a text that is the separator. -/
theorem length_wireLabels (sep : UInt8) {labels : List Label} (h : labels ≠ []) :
    (wireLabels labels).length = ([sep].intercalate (labels.map Label.bytes)).length + 1 := by
  induction labels with
  | nil => exact absurd rfl h
  | cons l ls ih =>
    cases ls with
    | nil => simp
    | cons l' ls =>
      have := ih (List.cons_ne_nil l' ls)
      rw [List.map_cons, List.map_cons, List.intercalate_cons_cons, ← List.map_cons, wireLabels_cons]
      simp only [List.length_cons, List.length_append, List.length_nil] at this ⊢
      omega

end Wire
