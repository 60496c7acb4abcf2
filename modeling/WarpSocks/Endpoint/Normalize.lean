import WarpSocks.Endpoint.Source
import WarpSocks.IpLiteral

/-!
# The normal form of an endpoint

`normalize_endpoint` cuts the trimmed text into a host and a port (`splitEndpoint_eq_some_iff`) and puts them
together again (`formatEndpoint_eq`).  The host can be read back from what it returns (`formatEndpoint_inj`), but
the cut does not find it again if the brackets of the text are not those of an address (`Misbracketed`), and what
follows a closing bracket is left out if it is not a colon.
-/

namespace WarpSocks.Endpoint

/-- The text starts with a bracket. -/
def OpensBracket (t : String) : Prop := ∃ rest, t = "[" ++ rest

private theorem opensBracket_iff {t : String} : OpensBracket t ↔ ∃ cs, t.toList = '[' :: cs := by
  constructor
  · rintro ⟨rest, rfl⟩
    exact ⟨rest.toList, by simp⟩
  · rintro ⟨cs, h⟩
    exact ⟨.ofList cs, String.toList_inj.1 (by simp [h])⟩

private theorem eq_bracketed_iff {t host tail : String} :
    t = "[" ++ host ++ "]" ++ tail ↔ t.toList = '[' :: (host.toList ++ ']' :: tail.toList) := by
  rw [← String.toList_inj]
  simp

theorem eq_colon_iff {t host port : String} :
    t = host ++ ":" ++ port ↔ t.toList = host.toList ++ ':' :: port.toList := by
  rw [← String.toList_inj]
  simp

private theorem splitEndpoint_of_bracket {t host port : String} (hopen : OpensBracket t) :
    splitEndpoint t = some (host, port) ↔
      ∃ tail, t = "[" ++ host ++ "]" ++ tail ∧ ']' ∉ host.toList ∧ port = (Text.stripPrefix tail ':').getD "" := by
  obtain ⟨rest, rfl⟩ := hopen
  have hstrip : Text.stripPrefix ("[" ++ rest) '[' = some rest := by
    rw [Text.stripPrefix_eq_some_iff]
    simp
  have hcons : ("[" ++ rest).toList = '[' :: rest.toList := by simp
  rw [splitEndpoint, hstrip]
  constructor
  · intro h
    obtain ⟨⟨host', tail⟩, hsplit, heq⟩ := Option.map_eq_some_iff.1 h
    cases heq
    rw [Text.splitOnce_eq_some_iff] at hsplit
    exact ⟨tail, eq_bracketed_iff.2 (by rw [hcons, hsplit.1]), hsplit.2, rfl⟩
  · rintro ⟨tail, ht, hhost, rfl⟩
    rw [eq_bracketed_iff, hcons, List.cons.injEq] at ht
    dsimp only
    rw [Text.splitOnce_eq_some_iff.2 ⟨ht.2, hhost⟩]
    rfl

private theorem splitEndpoint_of_no_bracket {t host port : String} (hno : ¬OpensBracket t) :
    splitEndpoint t = some (host, port) ↔
      t = host ++ ":" ++ port ∧ ':' ∉ port.toList ∨ t = host ∧ ':' ∉ t.toList ∧ port = "" := by
  have hstrip : Text.stripPrefix t '[' = none := by
    rw [Text.stripPrefix_eq_none_iff]
    exact fun cs hcs => hno (opensBracket_iff.2 ⟨cs, hcs⟩)
  rw [splitEndpoint, hstrip]
  constructor
  · intro h
    cases hsplit : Text.rsplitOnce t ':' with
    | some parts =>
      rw [hsplit] at h
      cases h
      rw [Text.rsplitOnce_eq_some_iff] at hsplit
      exact .inl ⟨eq_colon_iff.2 hsplit.1, hsplit.2⟩
    | none =>
      rw [hsplit] at h
      cases h
      exact .inr ⟨rfl, Text.rsplitOnce_eq_none_iff.1 hsplit, rfl⟩
  · rintro (⟨ht, hport⟩ | ⟨rfl, hcolon, rfl⟩)
    · rw [Text.rsplitOnce_eq_some_iff.2 ⟨eq_colon_iff.1 ht, hport⟩]
      rfl
    · rw [Text.rsplitOnce_eq_none_iff.2 hcolon]
      rfl

/-- The cut of a text: behind the first closing bracket if it starts with an opening one, else at the last colon. -/
theorem splitEndpoint_eq_some_iff {t host port : String} :
    splitEndpoint t = some (host, port) ↔
      (∃ tail, t = "[" ++ host ++ "]" ++ tail ∧ ']' ∉ host.toList ∧ port = (Text.stripPrefix tail ':').getD "") ∨
      (¬OpensBracket t ∧ (t = host ++ ":" ++ port ∧ ':' ∉ port.toList ∨ t = host ∧ ':' ∉ t.toList ∧ port = "")) := by
  by_cases hopen : OpensBracket t
  · rw [splitEndpoint_of_bracket hopen]
    exact ⟨.inl, fun h => h.resolve_right fun hno => hno.1 hopen⟩
  · have htail (tail : String) : t ≠ "[" ++ host ++ "]" ++ tail := fun ht =>
      hopen (opensBracket_iff.2 ⟨_, eq_bracketed_iff.1 ht⟩)
    rw [splitEndpoint_of_no_bracket hopen]
    exact ⟨fun h => .inr ⟨hopen, h⟩, fun h => (h.resolve_left fun ⟨tail, ht, _⟩ => htail tail ht).2⟩

/-- The number of a port, the default if there is no text for it. -/
def portNumber (port : String) : Option Nat :=
  (Text.parseUnsigned 65536 (if port.isEmpty then "2408" else port)).filter fun p => decide (1 ≤ p)

private theorem portNumber_toString {n : Nat} (hpos : 1 ≤ n) (hlt : n < 65536) :
    portNumber (toString n) = some n := by
  have hne : (toString n).isEmpty = false := by
    rw [String.isEmpty_eq_false_iff]
    intro h
    exact Text.toString_ne_nil n (by rw [h]; rfl)
  rw [portNumber, hne, if_neg Bool.false_ne_true, Text.parseUnsigned_toString hlt]
  exact Option.filter_some_pos (decide_eq_true hpos)

private theorem bounds_of_portNumber {port : String} {n : Nat} (h : portNumber port = some n) :
    1 ≤ n ∧ n < 65536 := by
  unfold portNumber at h
  rw [Option.filter_eq_some_iff] at h
  exact ⟨of_decide_eq_true h.2, Text.lt_of_parseUnsigned h.1⟩

theorem normalizeEndpoint_eq_some_iff {raw e : String} :
    normalizeEndpoint raw = some e ↔ ∃ host port n, splitEndpoint (Text.trim raw) = some (host, port) ∧ host ≠ "" ∧
      portNumber port = some n ∧ e = formatEndpoint host n := by
  unfold normalizeEndpoint
  dsimp only
  split
  · -- the empty text has no host
    rename_i hempty
    have htrim : Text.trim raw = "" := String.isEmpty_iff.1 hempty
    constructor
    · intro h
      cases h
    · rintro ⟨host, port, n, hsplit, hhost, -⟩
      rw [htrim, show splitEndpoint "" = some ("", "") by decide] at hsplit
      cases hsplit
      exact absurd rfl hhost
  · split
    · rename_i hnone
      simp [hnone]
    · rename_i host port hsplit
      split
      · rename_i hhost
        simp [hsplit, String.isEmpty_iff.1 hhost]
      · rename_i hhost
        have hne : host ≠ "" := fun h => hhost (String.isEmpty_iff.2 h)
        constructor
        · intro h
          obtain ⟨n, hn, rfl⟩ := Option.map_eq_some_iff.1 h
          exact ⟨host, port, n, hsplit, hne, hn, rfl⟩
        · rintro ⟨host', port', n, hsplit', -, hn, rfl⟩
          rw [hsplit] at hsplit'
          cases hsplit'
          exact Option.map_eq_some_iff.2 ⟨n, hn, rfl⟩

/-! ### The host can be read back -/

/-- The host as it is written: in brackets if it has a colon. -/
def bracketed (host : String) : String := if ':' ∈ host.toList then "[" ++ host ++ "]" else host

theorem formatEndpoint_eq (host : String) (port : Nat) :
    formatEndpoint host port = bracketed host ++ ":" ++ toString port := by
  unfold formatEndpoint bracketed
  dsimp only
  by_cases hcolon : ':' ∈ host.toList
  · simp [hcolon, String.append_assoc]
  · cases hparse : IpText.parse host with
    | none => simp [hcolon]
    | some ip =>
      cases ip with
      | v4 octets => simp [hcolon]
      | v6 octets => exact absurd (IpText.colon_mem_of_parse_v6 hparse) hcolon

theorem colon_notMem_toString (n : Nat) : ':' ∉ (toString n).toList := fun h =>
  absurd (Text.isDigit_of_mem_toString h) (by decide)

private theorem rsplitOnce_formatEndpoint (host : String) (port : Nat) :
    Text.rsplitOnce (formatEndpoint host port) ':' = some (bracketed host, toString port) := by
  rw [Text.rsplitOnce_eq_some_iff, ← eq_colon_iff]
  exact ⟨formatEndpoint_eq host port, colon_notMem_toString port⟩

private theorem bracketed_inj {h₁ h₂ : String} (h : bracketed h₁ = bracketed h₂) : h₁ = h₂ := by
  have hmixed {h₁ h₂ : String} (hcolon₁ : ':' ∈ h₁.toList) (hcolon₂ : ':' ∉ h₂.toList) : "[" ++ h₁ ++ "]" ≠ h₂ := by
    rintro rfl
    exact hcolon₂ (by simp [hcolon₁])
  unfold bracketed at h
  split at h
  · split at h
    · have hlist := congrArg String.toList h
      simp only [String.toList_append] at hlist
      exact String.toList_inj.1 (List.append_cancel_left (List.append_cancel_right hlist))
    · exact absurd h (hmixed (by assumption) (by assumption))
  · split at h
    · exact absurd h.symm (hmixed (by assumption) (by assumption))
    · exact h

theorem formatEndpoint_inj {h₁ h₂ : String} {n₁ n₂ : Nat} (h : formatEndpoint h₁ n₁ = formatEndpoint h₂ n₂) :
    h₁ = h₂ := by
  have hsplit := rsplitOnce_formatEndpoint h₁ n₁
  rw [h, rsplitOnce_formatEndpoint, Option.some.injEq, Prod.mk.injEq] at hsplit
  exact bracketed_inj hsplit.1.symm

/-! ### Normalising twice -/

/-- The host is found again in its normal form: in brackets it has no closing one, and else it does not look like
whitespace or like a bracket at its start. -/
def Stable (host : String) : Prop :=
  if ':' ∈ host.toList then ']' ∉ host.toList
  else ∃ c cs, host.toList = c :: cs ∧ Text.isWhitespace c = false ∧ c ≠ '['

theorem toList_formatEndpoint (host : String) (n : Nat) :
    (formatEndpoint host n).toList = (bracketed host).toList ++ ':' :: (toString n).toList :=
  eq_colon_iff.1 (formatEndpoint_eq host n)

/-- A normal form ends with a digit. -/
private theorem isWhitespace_last_formatEndpoint (host : String) (n : Nat) :
    ∀ c ∈ (formatEndpoint host n).toList.getLast?, Text.isWhitespace c = false := by
  intro c hc
  rw [toList_formatEndpoint, List.getLast?_append, List.getLast?_cons] at hc
  cases hd : (toString n).toList.getLast? with
  | none => exact absurd (List.getLast?_eq_none_iff.1 hd) (Text.toString_ne_nil n)
  | some d =>
    rw [hd] at hc
    cases hc
    exact Text.isWhitespace_of_isDigit (Text.isDigit_of_mem_toString (List.mem_of_getLast? hd))

/-- A normal form that starts with no whitespace is not trimmed. -/
private theorem trim_formatEndpoint {host : String} {n : Nat} {c : Char} {cs : List Char}
    (h : (bracketed host).toList = c :: cs)
    (hc : Text.isWhitespace c = false) : Text.trim (formatEndpoint host n) = formatEndpoint host n := by
  refine Text.trim_eq_self ?_ (isWhitespace_last_formatEndpoint host n)
  intro d hd
  rw [toList_formatEndpoint, h] at hd
  cases hd
  exact hc

/-- The first character of a text that is trimmed and does not start with a bracket. -/
private theorem head_of_trim {raw : String} (hno : ¬OpensBracket (Text.trim raw)) {c : Char} {cs : List Char}
    (h : (Text.trim raw).toList = c :: cs) : Text.isWhitespace c = false ∧ c ≠ '[' := by
  refine ⟨Text.isWhitespace_of_head_trim h, ?_⟩
  rintro rfl
  exact hno (opensBracket_iff.2 ⟨cs, h⟩)

private theorem stable_of_split {host port : String} {n : Nat} (hhost : host ≠ "")
    (h : splitEndpoint (Text.trim (formatEndpoint host n)) = some (host, port)) : Stable host := by
  unfold Stable
  obtain ⟨c, cs, hcons⟩ : ∃ c cs, host.toList = c :: cs :=
    List.exists_cons_of_ne_nil fun hnil => hhost (String.toList_inj.1 hnil)
  split
  · rename_i hcolon
    have hopen : (bracketed host).toList = '[' :: (host.toList ++ [']']) := by simp [bracketed, hcolon]
    rw [trim_formatEndpoint hopen (by decide), splitEndpoint_eq_some_iff] at h
    rcases h with ⟨tail, -, hclose, -⟩ | ⟨hno, -⟩
    · exact hclose
    · exact absurd (opensBracket_iff.2 ⟨_, by rw [toList_formatEndpoint, hopen, List.cons_append]⟩) hno
  · rename_i hcolon
    refine ⟨c, cs, hcons, ?_⟩
    rw [splitEndpoint_eq_some_iff] at h
    rcases h with ⟨tail, htrim, hclose, -⟩ | ⟨hno, ⟨htrim, -⟩ | ⟨htrim, -⟩⟩
    · -- a closing bracket can only come from the host
      have hmem : ']' ∈ (formatEndpoint host n).toList :=
        Text.mem_of_mem_trim (by rw [eq_bracketed_iff.1 htrim]; simp)
      rw [toList_formatEndpoint, bracketed, if_neg hcolon, List.mem_append, List.mem_cons] at hmem
      rcases hmem with hmem | hmem | hmem
      · exact absurd hmem hclose
      · exact absurd hmem (by decide)
      · exact absurd (Text.isDigit_of_mem_toString hmem) (by decide)
    · exact head_of_trim hno (by rw [eq_colon_iff.1 htrim, hcons, List.cons_append])
    · exact head_of_trim hno (by rw [htrim, hcons])

private theorem split_of_stable {host : String} {n : Nat} (h : Stable host) :
    splitEndpoint (Text.trim (formatEndpoint host n)) = some (host, toString n) := by
  unfold Stable at h
  split at h
  · rename_i hcolon
    have hopen : (bracketed host).toList = '[' :: (host.toList ++ [']']) := by simp [bracketed, hcolon]
    rw [trim_formatEndpoint hopen (by decide), splitEndpoint_eq_some_iff]
    refine .inl ⟨":" ++ toString n, ?_, h, ?_⟩
    · rw [eq_bracketed_iff, toList_formatEndpoint, hopen]
      simp
    · rw [Text.stripPrefix_eq_some_iff.2 (show (":" ++ toString n).toList = ':' :: (toString n).toList by simp)]
      rfl
  · rename_i hcolon
    obtain ⟨c, cs, hcons, hspace, hbracket⟩ := h
    have hplain : bracketed host = host := if_neg hcolon
    rw [trim_formatEndpoint (hplain ▸ hcons) hspace, splitEndpoint_eq_some_iff]
    refine .inr ⟨?_, .inl ⟨by rw [formatEndpoint_eq, hplain], colon_notMem_toString n⟩⟩
    intro hopen
    obtain ⟨rest, hrest⟩ := opensBracket_iff.1 hopen
    rw [toList_formatEndpoint, hplain, hcons, List.cons_append, List.cons.injEq] at hrest
    exact hbracket hrest.1

/-- The text of a port: nothing, or a number from 1 to 65535. -/
def IsPort (port : String) : Prop := port = "" ∨ ∃ n, 1 ≤ n ∧ Text.parseUnsigned 65536 port = some n

private theorem isPort_iff {port : String} : IsPort port ↔ ∃ n, portNumber port = some n := by
  unfold IsPort portNumber
  by_cases hport : port = ""
  · subst hport
    exact iff_of_true (.inl rfl) ⟨2408, by decide⟩
  · have hempty : port.isEmpty = false := String.isEmpty_eq_false_iff.2 hport
    rw [hempty, if_neg Bool.false_ne_true]
    constructor
    · rintro (h | ⟨n, hpos, hn⟩)
      · exact absurd h hport
      · exact ⟨n, by rw [hn]; exact Option.filter_some_pos (decide_eq_true hpos)⟩
    · rintro ⟨n, hn⟩
      rw [Option.filter_eq_some_iff] at hn
      exact .inr ⟨n, of_decide_eq_true hn.2, hn.1⟩

/-- The text has brackets that are not those of an address: a host in brackets that needs none and starts with
whitespace or with another bracket, or a closing bracket in a host with a colon that is not in brackets.  What
follows the host is a port, or is left out. -/
def Misbracketed (t : String) : Prop :=
  (∃ host tail, t = "[" ++ host ++ "]" ++ tail ∧ ']' ∉ host.toList ∧ ':' ∉ host.toList ∧
    (∃ c cs, host.toList = c :: cs ∧ (Text.isWhitespace c ∨ c = '[')) ∧ ∀ port, tail = ":" ++ port → IsPort port) ∨
  (∃ host port, t = host ++ ":" ++ port ∧ (∀ rest, t ≠ "[" ++ rest) ∧ ':' ∈ host.toList ∧ ']' ∈ host.toList ∧
    ':' ∉ port.toList ∧ IsPort port)

/-- What is behind the closing bracket and a colon, if there is one. -/
private theorem isPort_tail_iff {tail : String} :
    IsPort ((Text.stripPrefix tail ':').getD "") ↔ ∀ port, tail = ":" ++ port → IsPort port := by
  cases hstrip : Text.stripPrefix tail ':' with
  | none =>
    refine iff_of_true (.inl rfl) ?_
    rintro port rfl
    exact absurd (by simp) (Text.stripPrefix_eq_none_iff.1 hstrip port.toList)
  | some rest =>
    have htail : tail = ":" ++ rest := String.toList_inj.1 (by rw [Text.stripPrefix_eq_some_iff.1 hstrip]; simp)
    rw [Option.getD_some]
    constructor
    · rintro hrest port hport
      rw [htail, ← String.toList_inj] at hport
      obtain rfl : rest = port := String.toList_inj.1 (by simpa using hport)
      exact hrest
    · intro h
      exact h rest htail

/-- A normal form is its own one exactly if its host is stable. -/
private theorem normalizeEndpoint_formatEndpoint_iff {host : String} {n : Nat} (hhost : host ≠ "") (hpos : 1 ≤ n)
    (hlt : n < 65536) :
    normalizeEndpoint (formatEndpoint host n) = some (formatEndpoint host n) ↔ Stable host := by
  rw [normalizeEndpoint_eq_some_iff]
  constructor
  · rintro ⟨host', port, n', hsplit, -, -, heq⟩
    obtain rfl := formatEndpoint_inj heq
    exact stable_of_split hhost hsplit
  · intro hstable
    exact ⟨host, toString n, n, split_of_stable hstable, hhost, portNumber_toString hpos hlt, rfl⟩

/-- A text with stray brackets is accepted, and the host it is cut to is not stable. -/
private theorem Misbracketed.unstable {t : String} (hbad : Misbracketed t) :
    ∃ host port, splitEndpoint t = some (host, port) ∧ IsPort port ∧ host ≠ "" ∧ ¬Stable host := by
  rcases hbad with ⟨host, tail, ht, hclose, hcolon, ⟨c, cs, hcons, hc⟩, hport⟩ |
    ⟨host, port, ht, hno, hcolon, hclose, hlast, hport⟩
  · refine ⟨host, _, splitEndpoint_eq_some_iff.2 (.inl ⟨tail, ht, hclose, rfl⟩), isPort_tail_iff.2 hport, ?_, ?_⟩
    · rintro rfl
      cases hcons
    · unfold Stable
      rw [if_neg hcolon]
      rintro ⟨d, ds, hds, hspace, hbracket⟩
      rw [hcons] at hds
      cases hds
      rcases hc with hc | hc
      · rw [hspace] at hc
        cases hc
      · exact hbracket hc
  · refine ⟨host, port, splitEndpoint_eq_some_iff.2 (.inr ⟨fun ⟨rest, hrest⟩ => hno rest hrest, .inl ⟨ht, hlast⟩⟩),
      hport, ?_, ?_⟩
    · rintro rfl
      cases hcolon
    · unfold Stable
      rw [if_pos hcolon]
      exact fun hstable => hstable hclose

/-- Without stray brackets the host is stable. -/
private theorem stable_of_not_misbracketed {raw host port : String} (hgood : ¬Misbracketed (Text.trim raw))
    (hsplit : splitEndpoint (Text.trim raw) = some (host, port)) (hhost : host ≠ "") (hport : IsPort port) :
    Stable host := by
  obtain ⟨c, cs, hcons⟩ : ∃ c cs, host.toList = c :: cs :=
    List.exists_cons_of_ne_nil fun hnil => hhost (String.toList_inj.1 hnil)
  unfold Stable
  rcases splitEndpoint_eq_some_iff.1 hsplit with ⟨tail, ht, hclose, rfl⟩ | ⟨hno, ⟨ht, hlast⟩ | ⟨ht, hcolon, -⟩⟩
  · split
    · exact hclose
    · rename_i hcolon
      refine ⟨c, cs, hcons, ?_⟩
      by_contra hbad
      refine hgood (.inl ⟨host, tail, ht, hclose, hcolon, ⟨c, cs, hcons, ?_⟩, isPort_tail_iff.1 hport⟩)
      cases hspace : Text.isWhitespace c with
      | true => exact .inl rfl
      | false => exact .inr (by_contra fun hne => hbad ⟨hspace, hne⟩)
  · split
    · rename_i hcolon
      intro hclose
      exact hgood (.inr ⟨host, port, ht, fun rest hrest => hno ⟨rest, hrest⟩, hcolon, hclose, hlast, hport⟩)
    · exact ⟨c, cs, hcons, head_of_trim hno (by rw [eq_colon_iff.1 ht, hcons, List.cons_append])⟩
  · rw [ht] at hcolon
    rw [if_neg hcolon]
    exact ⟨c, cs, hcons, head_of_trim hno (by rw [ht, hcons])⟩

/-- Every normal form of a text is its own one exactly if the text has no stray brackets. -/
theorem normalizeEndpoint_idempotent_iff (raw : String) :
    (∀ e, normalizeEndpoint raw = some e → normalizeEndpoint e = some e) ↔ ¬Misbracketed (Text.trim raw) := by
  constructor
  · intro h hbad
    obtain ⟨host, port, hsplit, hport, hhost, hunstable⟩ := hbad.unstable
    obtain ⟨n, hn⟩ := isPort_iff.1 hport
    have hbounds := bounds_of_portNumber hn
    have haccept := normalizeEndpoint_eq_some_iff.2 ⟨host, port, n, hsplit, hhost, hn, rfl⟩
    exact hunstable ((normalizeEndpoint_formatEndpoint_iff hhost hbounds.1 hbounds.2).1 (h _ haccept))
  · intro hgood e he
    obtain ⟨host, port, n, hsplit, hhost, hn, rfl⟩ := normalizeEndpoint_eq_some_iff.1 he
    have hbounds := bounds_of_portNumber hn
    rw [normalizeEndpoint_formatEndpoint_iff hhost hbounds.1 hbounds.2]
    exact stable_of_not_misbracketed hgood hsplit hhost (isPort_iff.2 ⟨n, hn⟩)

/-- A literal without a port, whose normal form is its own. -/
theorem normalizeEndpoint_idempotent_ipv4 :
    normalizeEndpoint "1.1.1.1" = some "1.1.1.1:2408" ∧ normalizeEndpoint "1.1.1.1:2408" = some "1.1.1.1:2408" := by
  have haccept : normalizeEndpoint "1.1.1.1" = some "1.1.1.1:2408" := by decide
  refine ⟨haccept, (normalizeEndpoint_idempotent_iff "1.1.1.1").2 ?_ _ haccept⟩
  have htrim : Text.trim "1.1.1.1" = "1.1.1.1" := by decide
  have hplain : ']' ∉ "1.1.1.1".toList := by decide
  rw [htrim]
  rintro (⟨host, tail, ht, -⟩ | ⟨host, port, ht, -, -, hclose, -⟩)
  · rw [ht, eq_bracketed_iff.1 rfl] at hplain
    simp at hplain
  · rw [ht, eq_colon_iff.1 rfl] at hplain
    simp [hclose] at hplain

/-- Whitespace in brackets comes to the front, and a second opening bracket too. -/
theorem normalizeEndpoint_not_idempotent :
    normalizeEndpoint "[ x]:5" = some " x:5" ∧ normalizeEndpoint " x:5" = some "x:5" ∧
      normalizeEndpoint "[[x]:5" = some "[x:5" ∧ normalizeEndpoint "[x:5" = none := by decide

/-! ### The written port -/

/-- The ways to write a host and a port, which may be left out.  A host that is not in brackets ends at the last
colon. -/
def Written (t host port : String) : Prop :=
  (']' ∉ host.toList ∧ (t = "[" ++ host ++ "]" ∧ port = "" ∨ t = "[" ++ host ++ "]:" ++ port)) ∨
  ((∀ rest, t ≠ "[" ++ rest) ∧
    (t = host ∧ ':' ∉ host.toList ∧ port = "" ∨ t = host ++ ":" ++ port ∧ ':' ∉ port.toList))

/-- The number of an accepted endpoint is the written one, or the default if none is written, and what follows a
closing bracket is a colon or nothing. -/
def KeepsPort (raw : String) : Prop :=
  (∀ e, normalizeEndpoint raw = some e → ∃ host port n, host ≠ "" ∧ Written (Text.trim raw) host port ∧
    e = formatEndpoint host n ∧
    (port = "" ∧ n = 2408 ∨ port ≠ "" ∧ Text.parseUnsigned 65536 port = some n ∧ 1 ≤ n ∧ n ≤ 65535)) ∧
  (∀ host tail, Text.trim raw = "[" ++ host ++ "]" ++ tail → ']' ∉ host.toList → tail ≠ "" →
    (∀ port, tail ≠ ":" ++ port) → normalizeEndpoint raw = none)

private theorem portNumber_cases {port : String} {n : Nat} (h : portNumber port = some n) :
    port = "" ∧ n = 2408 ∨ port ≠ "" ∧ Text.parseUnsigned 65536 port = some n ∧ 1 ≤ n ∧ n ≤ 65535 := by
  have hbounds := bounds_of_portNumber h
  unfold portNumber at h
  by_cases hport : port = ""
  · subst hport
    rw [show (Text.parseUnsigned 65536 (if "".isEmpty then "2408" else "")).filter (fun p => decide (1 ≤ p)) =
      some 2408 by
      decide] at h
    cases h
    exact .inl ⟨rfl, rfl⟩
  · rw [String.isEmpty_eq_false_iff.2 hport, if_neg Bool.false_ne_true, Option.filter_eq_some_iff] at h
    exact .inr ⟨hport, h.1, hbounds.1, by omega⟩

/-- Without a colon behind the closing bracket, what follows the bracket is not looked at. -/
private theorem normalizeEndpoint_of_tail {raw host tail : String} (ht : Text.trim raw = "[" ++ host ++ "]" ++ tail)
    (hclose : ']' ∉ host.toList) (hhost : host ≠ "") (htail : ∀ port, tail ≠ ":" ++ port) :
    normalizeEndpoint raw = some (formatEndpoint host 2408) := by
  refine normalizeEndpoint_eq_some_iff.2 ⟨host, "", 2408, ?_, hhost, by decide, rfl⟩
  refine splitEndpoint_eq_some_iff.2 (.inl ⟨tail, ht, hclose, ?_⟩)
  have hnone : Text.stripPrefix tail ':' = none := by
    rw [Text.stripPrefix_eq_none_iff]
    intro cs hcs
    exact htail (.ofList cs) (String.toList_inj.1 (by simp [hcs]))
  rw [hnone]
  rfl

/-- Brackets with nothing in between are refused. -/
private theorem normalizeEndpoint_of_no_host {raw tail : String} (ht : Text.trim raw = "[" ++ "" ++ "]" ++ tail) :
    normalizeEndpoint raw = none := by
  rw [Option.eq_none_iff_forall_ne_some]
  intro e he
  obtain ⟨host, port, n, hsplit, hhost, -⟩ := normalizeEndpoint_eq_some_iff.1 he
  rw [splitEndpoint_eq_some_iff.2 (.inl ⟨tail, ht, by simp, rfl⟩)] at hsplit
  cases hsplit
  exact hhost rfl

/-- What is cut is written, if nothing but a port follows the closing bracket. -/
private theorem written_of_split {t host port : String} (hsplit : splitEndpoint t = some (host, port))
    (hgood : ∀ tail, t = "[" ++ host ++ "]" ++ tail → ']' ∉ host.toList → tail = "" ∨ ∃ port, tail = ":" ++ port) :
    Written t host port := by
  rcases splitEndpoint_eq_some_iff.1 hsplit with
    ⟨tail, ht, hclose, hport⟩ | ⟨hno, ⟨ht, hlast⟩ | ⟨ht, hcolon, hport⟩⟩
  · refine .inl ⟨hclose, ?_⟩
    rcases hgood tail ht hclose with rfl | ⟨port', rfl⟩
    · exact .inl ⟨by rw [ht, String.append_empty], hport⟩
    · have hstrip : Text.stripPrefix (":" ++ port') ':' = some port' := by
        rw [Text.stripPrefix_eq_some_iff]
        simp
      rw [hstrip, Option.getD_some] at hport
      refine .inr ?_
      rw [ht, hport, ← String.toList_inj]
      simp
  · exact .inr ⟨fun rest hrest => hno ⟨rest, hrest⟩, .inr ⟨ht, hlast⟩⟩
  · exact .inr ⟨fun rest hrest => hno ⟨rest, hrest⟩, .inl ⟨ht, ht ▸ hcolon, hport⟩⟩

/-- The port is the written one exactly if no text but a port follows a closing bracket. -/
theorem normalizeEndpoint_keeps_port_iff (raw : String) :
    KeepsPort raw ↔ ¬∃ host tail, Text.trim raw = "[" ++ host ++ "]" ++ tail ∧ host ≠ "" ∧ ']' ∉ host.toList ∧
      tail ≠ "" ∧ ∀ port, tail ≠ ":" ++ port := by
  constructor
  · rintro ⟨-, hrefused⟩ ⟨host, tail, ht, hhost, hclose, htail, hcolon⟩
    have hnone := hrefused host tail ht hclose htail hcolon
    rw [normalizeEndpoint_of_tail ht hclose hhost hcolon] at hnone
    cases hnone
  · intro hgood
    constructor
    · intro e he
      obtain ⟨host, port, n, hsplit, hhost, hn, rfl⟩ := normalizeEndpoint_eq_some_iff.1 he
      refine ⟨host, port, n, hhost, written_of_split hsplit fun tail ht hclose => ?_, rfl, portNumber_cases hn⟩
      by_contra hbad
      rw [not_or, not_exists] at hbad
      exact hgood ⟨host, tail, ht, hhost, hclose, hbad.1, hbad.2⟩
    · intro host tail ht hclose htail hcolon
      by_cases hhost : host = ""
      · subst hhost
        exact normalizeEndpoint_of_no_host ht
      · exact absurd ⟨host, tail, ht, hhost, hclose, htail, hcolon⟩ hgood

/-- A port behind a closing bracket. -/
theorem normalizeEndpoint_keeps_port_ipv6 : KeepsPort "[::1]:500" := by
  refine (normalizeEndpoint_keeps_port_iff "[::1]:500").2 ?_
  rintro ⟨host, tail, ht, -, hclose, -, hcolon⟩
  have hsplit : Text.splitOnce "::1]:500" ']' = some ("::1", ":500") := by decide
  rw [show Text.trim "[::1]:500" = "[" ++ "::1]:500" by decide, ← String.toList_inj] at ht
  rw [Text.splitOnce_eq_some_iff.2 ⟨by simpa using ht, hclose⟩] at hsplit
  cases hsplit
  exact hcolon "500" rfl

/-- A port without the colon is replaced by the default. -/
theorem normalizeEndpoint_drops_port : normalizeEndpoint "[::1]8080" = some "[::1]:2408" ∧
    ¬KeepsPort "[::1]8080" := by
  refine ⟨by decide, fun h => ?_⟩
  have htail : ∀ port, "8080" ≠ ":" ++ port := by
    intro port hport
    have hlist := congrArg String.toList hport
    simp at hlist
  have hnone := h.2 "::1" "8080" (by decide) (by decide) (by decide) htail
  exact absurd hnone (by decide)

end WarpSocks.Endpoint
