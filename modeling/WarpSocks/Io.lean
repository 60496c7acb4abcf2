/-!
# Errors and texts of the standard library

The part of `std::io::Error` the program builds and inspects, an error kind and a text, the contexts of
`anyhow::Error`, `String::from_utf8` and `String::from_utf8_lossy`.
-/

namespace WarpSocks

/-- The kinds of `std::io::ErrorKind` that occur in the modelled functions. -/
inductive ErrorKind where
  | unexpectedEof
  | connectionRefused
  | connectionAborted
  | connectionReset
  | brokenPipe
  | notConnected
  | addrInUse
  | addrNotAvailable
  | timedOut
  | invalidData
  | other
  deriving DecidableEq, Repr

/-- `std::io::Error`. -/
structure IoError where
  kind : ErrorKind
  msg : String
  deriving DecidableEq, Repr

instance decidableEqExcept {ε α : Type} [DecidableEq ε] [DecidableEq α] : DecidableEq (Except ε α)
  | .ok a, .ok b => decidable_of_iff (a = b) ⟨congrArg _, Except.ok.inj⟩
  | .error e, .error f => decidable_of_iff (e = f) ⟨congrArg _, Except.error.inj⟩
  | .ok _, .error _ => .isFalse fun h => by cases h
  | .error _, .ok _ => .isFalse fun h => by cases h

/-- The error tokio's `read_exact` returns when the stream ends too early. -/
def earlyEof : IoError := ⟨.unexpectedEof, "early eof"⟩

/-- `anyhow::Error`: the contexts, the outermost first, and the cause. -/
abbrev Chain := List String

/-- `result.context(..)`. -/
def orContext {α : Type} (context : Chain) : Except IoError α → Except Chain α
  | .ok a => .ok a
  | .error e => .error (context ++ [e.msg])

/-- `String::from_utf8(bytes).ok()`. -/
def stringFromUtf8 (bytes : List UInt8) : Option String := String.fromUTF8? ⟨bytes.toArray⟩

/-- Whether `b` may follow `a` at the start of a character of three or four bytes. -/
def mayFollow (a b : UInt8) : Bool :=
  if a = 0xe0 then 0xa0 ≤ b && b ≤ 0xbf
  else if a = 0xed then 0x80 ≤ b && b ≤ 0x9f
  else if a = 0xf0 then 0x90 ≤ b && b ≤ 0xbf
  else if a = 0xf4 then 0x80 ≤ b && b ≤ 0x8f
  else 0xe1 ≤ a && a ≤ 0xf3 && 0x80 ≤ b && b ≤ 0xbf

/-- How many bytes `utf8_chunks` takes together where no character starts: those that could still have become
one. -/
def invalidLen : List UInt8 → Nat
  | a :: b :: rest =>
    if !mayFollow a b then 1
    else if 0xf0 ≤ a && rest.head?.any fun c => 0x80 ≤ c && c ≤ 0xbf then 3
    else 2
  | _ => 1

private theorem invalidLen_pos (bytes : List UInt8) : 0 < invalidLen bytes := by
  unfold invalidLen
  split
  · split
    · decide
    · split <;> decide
  · decide

/-- `Utf8Error::valid_up_to`: how many bytes stand in front of the first place where no character starts. -/
def validUpTo (bytes : List UInt8) : Nat :=
  if bytes = [] then 0
  else
    match ByteArray.utf8DecodeChar? ⟨bytes.toArray⟩ 0 with
    | some c => c.utf8Size + validUpTo (bytes.drop c.utf8Size)
    | none => 0
termination_by bytes.length
decreasing_by
  have hlen := List.length_pos_iff.2 ‹¬bytes = []›
  have hpos := c.utf8Size_pos
  rw [List.length_drop]
  omega

/-- `Display` of `Utf8Error`, for bytes that are no text: the bytes at the place could still have become a
character, or not. -/
def utf8Error (bytes : List UInt8) : String :=
  let index := validUpTo bytes
  let rest := bytes.drop index
  let len := invalidLen rest
  if len = rest.length ∧ rest.head?.any fun a => 0xc2 ≤ a && a ≤ 0xf4 then
    s!"incomplete utf-8 byte sequence from index {index}"
  else s!"invalid utf-8 sequence of {len} bytes from index {index}"

/-- The characters of a text, with a replacement for each invalid part. -/
def lossyChars (bytes : List UInt8) : List Char :=
  if bytes = [] then []
  else
    match ByteArray.utf8DecodeChar? ⟨bytes.toArray⟩ 0 with
    | some c => c :: lossyChars (bytes.drop c.utf8Size)
    | none => '\ufffd' :: lossyChars (bytes.drop (invalidLen bytes))
termination_by bytes.length
decreasing_by
  · have hlen := List.length_pos_iff.2 ‹¬bytes = []›
    have hpos := c.utf8Size_pos
    rw [List.length_drop]
    omega
  · have hlen := List.length_pos_iff.2 ‹¬bytes = []›
    have hpos := invalidLen_pos bytes
    rw [List.length_drop]
    omega

/-- `String::from_utf8_lossy(bytes).into_owned()`.  A valid text is taken as it is. -/
def stringFromUtf8Lossy (bytes : List UInt8) : String := (stringFromUtf8 bytes).getD (.ofList (lossyChars bytes))

end WarpSocks
