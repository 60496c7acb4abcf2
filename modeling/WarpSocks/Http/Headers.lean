import Mathlib.Data.Finmap
import WarpSocks.HostCase

/-!
# Header maps

`http::HeaderMap`: the values of each name, in order.  A name is kept in lower case and looked up in any; a text
that is no name is the name of nothing.  In which order the names are is not modelled.
-/

namespace WarpSocks.Http

open IpText (lowerByte)

/-- The bytes of header names: digits, lower-case letters and some marks. -/
def isNameByte (b : UInt8) : Bool :=
  (48 ≤ b && b ≤ 57) || (97 ≤ b && b ≤ 122) ||
    b ∈ ([33, 35, 36, 37, 38, 39, 42, 43, 45, 46, 94, 95, 96, 124, 126] : List UInt8)

/-- `HeaderName`. -/
abbrev HeaderName := { name : List UInt8 // name ≠ [] ∧ name.all isNameByte }

/-- `HeaderName::from_bytes`. -/
def HeaderName.fromBytes (bytes : List UInt8) : Option HeaderName :=
  if h : bytes.map lowerByte ≠ [] ∧ (bytes.map lowerByte).all isNameByte then
    some ⟨bytes.map lowerByte, h⟩
  else none

/-- The bytes of header values: no control characters but the tab. -/
def isValueByte (b : UInt8) : Bool := b == 9 || (32 ≤ b && b != 127)

/-- The bytes of header values that are texts. -/
def isVisible (b : UInt8) : Bool := b == 9 || (32 ≤ b && b < 127)

/-- `HeaderValue`. -/
abbrev HeaderValue := { value : List UInt8 // value.all isValueByte }

/-- `HeaderValue::to_str`. -/
def HeaderValue.toStr (value : HeaderValue) : Option String :=
  if value.val.all isVisible then some (.ofList (value.val.map fun b => Char.ofNat b.toNat)) else none

/-- `HeaderMap`. -/
abbrev HeaderMap := Finmap fun _ : HeaderName => { values : List HeaderValue // values ≠ [] }

namespace HeaderMap

/-- `HeaderMap::get_all`. -/
def getAll (headers : HeaderMap) (name : HeaderName) : List HeaderValue :=
  ((headers.lookup name).map Subtype.val).getD []

/-- `HeaderMap::get`: the first value. -/
def get (headers : HeaderMap) (name : HeaderName) : Option HeaderValue := (headers.getAll name).head?

/-- `HeaderMap::insert`: the value replaces those that were there. -/
def insert (headers : HeaderMap) (name : HeaderName) (value : HeaderValue) : HeaderMap :=
  Finmap.insert name ⟨[value], List.cons_ne_nil _ _⟩ headers

/-- `HeaderMap::remove`, by a text. -/
def remove (headers : HeaderMap) (name : String) : HeaderMap :=
  match HeaderName.fromBytes (Text.asBytes name) with
  | some name => headers.erase name
  | none => headers

end HeaderMap

/-- The text is the name, in upper or lower case. -/
def Spells (bytes : List UInt8) (name : HeaderName) : Prop := bytes.map lowerByte = name.val

instance (bytes : List UInt8) (name : HeaderName) : Decidable (Spells bytes name) :=
  inferInstanceAs (Decidable (_ = _))

private theorem fromBytes_eq_some_iff {bytes : List UInt8} {name : HeaderName} :
    HeaderName.fromBytes bytes = some name ↔ Spells bytes name := by
  unfold HeaderName.fromBytes Spells
  constructor
  · intro h
    split at h
    · rw [← Option.some.inj h]
    · cases h
  · intro h
    rw [dif_pos (by rw [h]; exact name.property)]
    exact congrArg some (Subtype.ext h)

namespace HeaderMap

theorem getAll_insert_self (headers : HeaderMap) (name : HeaderName) (value : HeaderValue) :
    (headers.insert name value).getAll name = [value] := by
  rw [getAll, insert, Finmap.lookup_insert, Option.map_some, Option.getD_some]

theorem getAll_insert_of_ne (headers : HeaderMap) {name name' : HeaderName} (hne : name ≠ name')
    (value : HeaderValue) :
    (headers.insert name' value).getAll name = headers.getAll name := by
  rw [getAll, insert, Finmap.lookup_insert_of_ne _ hne, getAll]

/-- A removal by a text is of the name that the text spells. -/
private theorem getAll_remove (headers : HeaderMap) (text : String) (name : HeaderName) :
    (headers.remove text).getAll name = if Spells (Text.asBytes text) name then [] else headers.getAll name := by
  unfold remove
  by_cases hspells : Spells (Text.asBytes text) name
  · rw [fromBytes_eq_some_iff.2 hspells, if_pos hspells]
    dsimp only
    rw [getAll, Finmap.lookup_erase, Option.map_none, Option.getD_none]
  · rw [if_neg hspells]
    split
    · rename_i name' hname'
      have hne : name ≠ name' := fun heq => hspells (heq ▸ fromBytes_eq_some_iff.1 hname')
      rw [getAll, Finmap.lookup_erase_ne hne, getAll]
    · rfl

/-- What is left after removals by texts. -/
theorem getAll_foldl_remove (headers : HeaderMap) (texts : List String) (name : HeaderName) :
    (texts.foldl remove headers).getAll name =
      if ∃ text ∈ texts, Spells (Text.asBytes text) name then [] else headers.getAll name := by
  induction texts generalizing headers with
  | nil => simp
  | cons text texts ih =>
    rw [List.foldl_cons, ih, getAll_remove]
    by_cases htext : Spells (Text.asBytes text) name
    · simp [htext]
    · simp [htext]

end HeaderMap

end WarpSocks.Http
