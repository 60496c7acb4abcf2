import WarpSocks.Http.Headers
import WarpSocks.Io

/-!
# Headers through the proxy

`strip_hop_headers` takes the headers of one hop away, those of a fixed list and those that `Connection` names,
and puts two of them back for an upgrade.  `forward` calls it in both directions.
-/

namespace WarpSocks.Http

def connection : HeaderName := ⟨Text.asBytes "connection", by decide⟩

def upgrade : HeaderName := ⟨Text.asBytes "upgrade", by decide⟩

def host : HeaderName := ⟨Text.asBytes "host", by decide⟩

/-- The value `upgrade`. -/
def upgradeValue : HeaderValue := ⟨Text.asBytes "upgrade", by decide⟩

/-- The headers that are always of one hop. -/
def hopHeaders : List String :=
  ["connection", "proxy-connection", "keep-alive", "proxy-authenticate", "proxy-authorization", "te", "trailer",
    "transfer-encoding", "upgrade"]

/-- The names in the values of `Connection`.  A value that is no text is left out. -/
def connectionNames (headers : HeaderMap) : List String :=
  (((headers.getAll connection).filterMap HeaderValue.toStr).flatMap fun v => Text.split v ',').map Text.trim

/-- `strip_hop_headers`. -/
def stripHopHeaders (headers : HeaderMap) (requested : Option HeaderValue) : HeaderMap :=
  let names := connectionNames headers
  let headers := names.foldl HeaderMap.remove headers
  let headers := hopHeaders.foldl HeaderMap.remove headers
  match requested with
  | some value => (headers.insert upgrade value).insert connection upgradeValue
  | none => headers

/-- What `forward` reads of a response. -/
structure Response where
  status : Nat
  headers : HeaderMap

/-- The headers with which `forward` sends a request on. -/
def forwardRequest (authority : HeaderValue) (headers : HeaderMap) : HeaderMap :=
  (stripHopHeaders headers (headers.get upgrade)).insert host authority

/-- The response with which `forward` answers.  There is room for one tunnel on a connection. -/
def forwardResponse (clientUpgrade tunnelFree : Bool) (response : Response) : Except Chain Response :=
  let responseUpgrade := response.headers.get upgrade
  if response.status = 101 then
    if !clientUpgrade then .error ["目标返回未请求的 Upgrade"]
    else if !tunnelFree then .error ["HTTP 连接重复升级或已关闭"]
    else .ok { response with headers := stripHopHeaders response.headers responseUpgrade }
  else .ok { response with headers := stripHopHeaders response.headers none }

/-- `forward` on a connection to the target, for every method but `CONNECT`. -/
def forward (authority : HeaderValue) (target : HeaderMap → Response) (tunnelFree : Bool) (headers : HeaderMap) :
    Except Chain Response :=
  forwardResponse (headers.get upgrade).isSome tunnelFree (target (forwardRequest authority headers))

/-! ### What the headers name -/

/-- The white space around the elements of a list. -/
def isOws (b : UInt8) : Bool := b == 32 || b == 9

/-- The elements of a list in a header value. -/
def elements (value : List UInt8) : List (List UInt8) :=
  (value.splitOn 44).map fun part => (part.dropWhile isOws).rdropWhile isOws

/-- An element of the value is the name. -/
def Names (value : HeaderValue) (name : HeaderName) : Prop := ∃ element ∈ elements value.val, Spells element name

instance (value : HeaderValue) (name : HeaderName) : Decidable (Names value name) :=
  inferInstanceAs (Decidable (∃ element ∈ _, _))

/-- A value of `Connection` names the header. -/
def Named (headers : HeaderMap) (name : HeaderName) : Prop := ∃ value ∈ headers.getAll connection, Names value name

instance (headers : HeaderMap) (name : HeaderName) : Decidable (Named headers name) :=
  inferInstanceAs (Decidable (∃ value ∈ _, _))

/-- The header is in the fixed list. -/
def IsHop (name : HeaderName) : Prop := name.val ∈ hopHeaders.map Text.asBytes

instance (name : HeaderName) : Decidable (IsHop name) := inferInstanceAs (Decidable (_ ∈ _))

/-- The values of a header behind the proxy. -/
def passed (headers : HeaderMap) (requested : Option HeaderValue) (name : HeaderName) : List HeaderValue :=
  if requested.isSome ∧ name = connection then [upgradeValue]
  else if requested.isSome ∧ name = upgrade then requested.toList
  else if IsHop name ∨ Named headers name then []
  else headers.getAll name

/-! ### Texts and bytes -/

private theorem dropWhile_congr {α : Type} {p q : α → Bool} {xs : List α} (h : ∀ x ∈ xs, p x = q x) :
    xs.dropWhile p = xs.dropWhile q := by
  induction xs with
  | nil => rfl
  | cons x xs ih =>
    rw [List.dropWhile_cons, List.dropWhile_cons, h x List.mem_cons_self,
      ih fun y hy => h y (List.mem_cons_of_mem x hy)]

private theorem rdropWhile_congr {α : Type} {p q : α → Bool} {xs : List α} (h : ∀ x ∈ xs, p x = q x) :
    xs.rdropWhile p = xs.rdropWhile q := by
  rw [List.rdropWhile, List.rdropWhile, dropWhile_congr fun x hx => h x (List.mem_reverse.1 hx)]

private theorem rdropWhile_map {α β : Type} (f : α → β) (p : β → Bool) (xs : List α) :
    (xs.map f).rdropWhile p = (xs.rdropWhile (p ∘ f)).map f := by
  rw [List.rdropWhile, List.rdropWhile, ← List.map_reverse, List.dropWhile_map, List.map_reverse]

/-- The bytes of a text are those it was made of. -/
private theorem asBytes_visible {bytes : List UInt8} (h : ∀ b ∈ bytes, isVisible b) :
    Text.asBytes (.ofList (bytes.map fun b => Char.ofNat b.toNat)) = bytes := by
  have hall (b : UInt8) : isVisible b → (Char.ofNat b.toNat).val.toNat < 128 ∧
      UInt8.ofNat (Char.ofNat b.toNat).val.toNat = b :=
    Text.forall_byte (P := fun b => isVisible b → (Char.ofNat b.toNat).val.toNat < 128 ∧
      UInt8.ofNat (Char.ofNat b.toNat).val.toNat = b) (by decide +kernel) b
  rw [Text.asBytes_of_lt, List.map_map]
  · exact (List.map_congr_left fun b hb => (hall b (h b hb)).2).trans (List.map_id _)
  · intro c hc
    obtain ⟨b, hb, rfl⟩ := List.mem_map.1 hc
    exact (hall b (h b hb)).1

/-- Trimming the text of a part takes away the white space around the part. -/
private theorem asBytes_trim_visible {bytes : List UInt8} (h : ∀ b ∈ bytes, isVisible b) :
    Text.asBytes (Text.trim (.ofList (bytes.map fun b => Char.ofNat b.toNat))) =
      (bytes.dropWhile isOws).rdropWhile isOws := by
  have hows : ∀ b ∈ bytes, (Text.isWhitespace ∘ fun b : UInt8 => Char.ofNat b.toNat) b = isOws b := fun b hb =>
    Text.forall_byte (P := fun b => isVisible b → Text.isWhitespace (Char.ofNat b.toNat) = isOws b)
      (by decide +kernel) b (h b hb)
  have hdrop : ∀ b ∈ bytes.dropWhile isOws, b ∈ bytes := fun b hb => (List.dropWhile_suffix _).subset hb
  rw [Text.trim, String.toList_ofList, List.dropWhile_map, dropWhile_congr hows, rdropWhile_map,
    rdropWhile_congr fun b hb => hows b (hdrop b hb), asBytes_visible]
  intro b hb
  exact h b (hdrop b ((List.rdropWhile_prefix _ _).subset hb))

/-- The elements of a readable value. -/
private theorem elements_of_toStr {value : HeaderValue} {s : String} (h : value.toStr = some s) :
    (Text.split s ',').map (fun name => Text.asBytes (Text.trim name)) = elements value.val := by
  rw [HeaderValue.toStr, Option.ite_none_right_eq_some] at h
  obtain ⟨hvisible, hs⟩ := h
  rw [List.all_eq_true] at hvisible
  have hcomma : (fun c : Char => c == ',') ∘ (fun b : UInt8 => Char.ofNat b.toNat) = fun b => b == 44 := by
    funext b
    exact Text.forall_byte (P := fun b => (Char.ofNat b.toNat == ',') = (b == 44)) (by decide +kernel) b
  rw [← Option.some.inj hs, Text.split, String.toList_ofList, List.splitOn, Text.splitOnP_map, hcomma, List.map_map,
    List.map_map, elements, List.splitOn]
  refine List.map_congr_left fun part hpart => ?_
  exact asBytes_trim_visible fun b hb => hvisible b (Text.mem_of_mem_splitOnP hpart hb)

/-! ### Stripping -/

/-- A readable value of `Connection` names the header. -/
def NamedByText (headers : HeaderMap) (name : HeaderName) : Prop :=
  ∃ value ∈ headers.getAll connection, value.toStr.isSome ∧ Names value name

instance (headers : HeaderMap) (name : HeaderName) : Decidable (NamedByText headers name) :=
  inferInstanceAs (Decidable (∃ value ∈ _, _))

private theorem NamedByText.named {headers : HeaderMap} {name : HeaderName} (h : NamedByText headers name) :
    Named headers name := by
  obtain ⟨value, hvalue, -, hnames⟩ := h
  exact ⟨value, hvalue, hnames⟩

private theorem spells_connectionNames {headers : HeaderMap} {name : HeaderName} :
    (∃ text ∈ connectionNames headers, Spells (Text.asBytes text) name) ↔ NamedByText headers name := by
  have hnames {value : HeaderValue} {s : String} (h : value.toStr = some s) :
      (∃ part ∈ Text.split s ',', Spells (Text.asBytes (Text.trim part)) name) ↔ Names value name := by
    rw [Names, ← elements_of_toStr h]
    simp
  unfold connectionNames
  constructor
  · rintro ⟨text, htext, hspells⟩
    obtain ⟨part, hpart, rfl⟩ := List.mem_map.1 htext
    obtain ⟨s, hs, hpart⟩ := List.mem_flatMap.1 hpart
    obtain ⟨value, hvalue, hstr⟩ := List.mem_filterMap.1 hs
    exact ⟨value, hvalue, by rw [hstr, Option.isSome_some], (hnames hstr).1 ⟨part, hpart, hspells⟩⟩
  · rintro ⟨value, hvalue, hsome, h⟩
    obtain ⟨s, hstr⟩ := Option.isSome_iff_exists.1 hsome
    obtain ⟨part, hpart, hspells⟩ := (hnames hstr).2 h
    exact ⟨Text.trim part, List.mem_map_of_mem
      (List.mem_flatMap.2 ⟨s, List.mem_filterMap.2 ⟨value, hvalue, hstr⟩, hpart⟩), hspells⟩

private theorem spells_hopHeaders {name : HeaderName} :
    (∃ text ∈ hopHeaders, Spells (Text.asBytes text) name) ↔ IsHop name := by
  have hlower : ∀ text ∈ hopHeaders, (Text.asBytes text).map IpText.lowerByte = Text.asBytes text := by decide
  rw [IsHop, List.mem_map]
  constructor
  · rintro ⟨text, htext, hspells⟩
    rw [Spells, hlower text htext] at hspells
    exact ⟨text, htext, hspells⟩
  · rintro ⟨text, htext, heq⟩
    exact ⟨text, htext, by rw [Spells, hlower text htext, heq]⟩

/-- What is left. -/
private theorem getAll_stripHopHeaders (headers : HeaderMap) (requested : Option HeaderValue) (name : HeaderName) :
    (stripHopHeaders headers requested).getAll name =
      if requested.isSome ∧ name = connection then [upgradeValue]
      else if requested.isSome ∧ name = upgrade then requested.toList
      else if IsHop name ∨ NamedByText headers name then []
      else headers.getAll name := by
  have hremoved : (hopHeaders.foldl HeaderMap.remove
    ((connectionNames headers).foldl HeaderMap.remove headers)).getAll name =
      if IsHop name ∨ NamedByText headers name then [] else headers.getAll name := by
    rw [HeaderMap.getAll_foldl_remove, HeaderMap.getAll_foldl_remove]
    simp only [spells_hopHeaders, spells_connectionNames]
    by_cases hhop : IsHop name
    · rw [if_pos hhop, if_pos (.inl hhop)]
    · rw [if_neg hhop]
      simp only [hhop, false_or]
  cases requested with
  | none =>
    rw [if_neg (by simp), if_neg (by simp)]
    exact hremoved
  | some value =>
    show ((HeaderMap.insert _ upgrade value).insert connection upgradeValue).getAll name = _
    by_cases hconnection : name = connection
    · rw [if_pos ⟨rfl, hconnection⟩, hconnection, HeaderMap.getAll_insert_self]
    · rw [if_neg fun h => hconnection h.2, HeaderMap.getAll_insert_of_ne _ hconnection]
      by_cases hupgrade : name = upgrade
      · rw [if_pos ⟨rfl, hupgrade⟩, hupgrade, HeaderMap.getAll_insert_self, Option.toList_some]
      · rw [if_neg fun h => hupgrade h.2, HeaderMap.getAll_insert_of_ne _ hupgrade, hremoved]

/-- The headers of the hop are taken away, and no others. -/
def Strips (headers : HeaderMap) (requested : Option HeaderValue) : Prop :=
  ∀ name, (stripHopHeaders headers requested).getAll name = passed headers requested name

/-- The headers of the hop are taken away exactly if each header that a value of `Connection` names that is no
text is in the fixed list, or named by one that is a text. -/
theorem stripHopHeaders_iff (headers : HeaderMap) (requested : Option HeaderValue) :
    Strips headers requested ↔ ∀ name, headers.getAll name ≠ [] → ∀ value ∈ headers.getAll connection,
      value.toStr = none → Names value name → IsHop name ∨ NamedByText headers name := by
  have hhop {name : HeaderName} (h : ¬IsHop name) : name ≠ connection ∧ name ≠ upgrade := by
    constructor
    · rintro rfl
      exact h (by decide)
    · rintro rfl
      exact h (by decide)
  constructor
  · intro h name hpresent value hvalue _ hnames
    by_contra hkept
    obtain ⟨hconnection, hupgrade⟩ := hhop fun h => hkept (.inl h)
    have hname := h name
    rw [getAll_stripHopHeaders, if_neg fun h => hconnection h.2, if_neg fun h => hupgrade h.2, if_neg hkept, passed,
      if_neg fun h => hconnection h.2, if_neg fun h => hupgrade h.2, if_pos (.inr ⟨value, hvalue, hnames⟩)] at hname
    exact hpresent hname
  · intro h name
    rw [getAll_stripHopHeaders, passed]
    split
    · rfl
    · split
      · rfl
      · by_cases hgone : IsHop name ∨ NamedByText headers name
        · rw [if_pos hgone, if_pos (hgone.imp_right NamedByText.named)]
        · -- then a value that names the header is no text, and there is no such header
          rw [if_neg hgone]
          split
          · rename_i hnamed
            obtain ⟨value, hvalue, hnames⟩ := hnamed.resolve_left fun h => hgone (.inl h)
            by_contra hpresent
            refine hgone (h name hpresent value hvalue ?_ hnames)
            by_contra hsome
            exact hgone (.inr ⟨value, hvalue, Option.isSome_iff_ne_none.2 hsome, hnames⟩)
          · rfl

/-- A value that names a header, in capitals and with space around. -/
theorem stripHopHeaders_named :
    Strips ((HeaderMap.insert ∅ connection ⟨Text.asBytes "close,  X-Secret", by decide⟩).insert
      ⟨Text.asBytes "x-secret", by decide⟩ ⟨Text.asBytes "1", by decide⟩) none := by
  refine (stripHopHeaders_iff _ _).2 fun name _ value hvalue hstr _ => ?_
  have hreadable : ∀ value ∈ HeaderMap.getAll ((HeaderMap.insert ∅ connection
      ⟨Text.asBytes "close,  X-Secret", by decide⟩).insert ⟨Text.asBytes "x-secret", by decide⟩
      ⟨Text.asBytes "1", by decide⟩) connection, value.toStr ≠ none := by decide
  exact absurd hstr (hreadable value hvalue)

/-- The header stays, as the value that names it ends with a byte outside of ASCII. -/
theorem stripHopHeaders_leaks :
    let name : HeaderName := ⟨Text.asBytes "x-secret", by decide⟩
    let headers := (HeaderMap.insert ∅ connection ⟨Text.asBytes "x-secret, " ++ [255], by decide⟩).insert name
      ⟨Text.asBytes "1", by decide⟩
    Named headers name ∧ (stripHopHeaders headers none).getAll name = [⟨Text.asBytes "1", by decide⟩] ∧
      ¬Strips headers none := by
  intro name headers
  have hnamed : Named headers name := by decide
  have hkept : (stripHopHeaders headers none).getAll name = [⟨Text.asBytes "1", by decide⟩] := by decide
  refine ⟨hnamed, hkept, fun h => ?_⟩
  have hpassed : passed headers none name = [] := by decide
  have hname := h name
  rw [hkept, hpassed] at hname
  cases hname

/-! ### Both directions -/

/-- All values of `Connection` are texts. -/
def Readable (headers : HeaderMap) : Prop := ∀ value ∈ headers.getAll connection, value.toStr.isSome

private theorem named_iff_of_readable {headers : HeaderMap} (h : Readable headers) {name : HeaderName} :
    NamedByText headers name ↔ Named headers name := by
  constructor
  · exact NamedByText.named
  · rintro ⟨value, hvalue, hnames⟩
    exact ⟨value, hvalue, h value hvalue, hnames⟩

private theorem getAll_stripHopHeaders_of_readable {headers : HeaderMap} (h : Readable headers)
    (requested : Option HeaderValue)
    (name : HeaderName) : (stripHopHeaders headers requested).getAll name = passed headers requested name := by
  rw [getAll_stripHopHeaders, passed]
  simp only [named_iff_of_readable h]

/-- The target sees no header of the client's hop, but for an upgrade that is asked for. -/
theorem getAll_forwardRequest {headers : HeaderMap} (h : Readable headers) (authority : HeaderValue)
    (name : HeaderName) :
    (forwardRequest authority headers).getAll name =
      if name = host then [authority] else passed headers (headers.get upgrade) name := by
  rw [forwardRequest]
  by_cases hname : name = host
  · rw [if_pos hname, hname, HeaderMap.getAll_insert_self]
  · rw [if_neg hname, HeaderMap.getAll_insert_of_ne _ hname, getAll_stripHopHeaders_of_readable h]

/-- The client sees no header of the target's hop, but for an upgrade it asked for. -/
theorem forward_passed {authority : HeaderValue} {target : HeaderMap → Response} {tunnelFree : Bool}
    {headers : HeaderMap} {response : Response} (hok : forward authority target tunnelFree headers = .ok response)
    (h : Readable (target (forwardRequest authority headers)).headers) :
    let received := target (forwardRequest authority headers)
    response.status = received.status ∧ (response.status = 101 → (headers.get upgrade).isSome) ∧
      ∀ name, response.headers.getAll name =
        passed received.headers (if response.status = 101 then received.headers.get upgrade else none) name := by
  intro received
  rw [forward, forwardResponse] at hok
  split at hok
  · rename_i hstatus
    split at hok
    · cases hok
    · rename_i hclient
      split at hok
      · cases hok
      · obtain rfl := Except.ok.inj hok
        refine ⟨rfl, fun _ => by simpa [Option.isSome_iff_ne_none] using hclient, fun name => ?_⟩
        dsimp only
        rw [if_pos hstatus, getAll_stripHopHeaders_of_readable h]
  · rename_i hstatus
    obtain rfl := Except.ok.inj hok
    refine ⟨rfl, fun h101 => absurd h101 hstatus, fun name => ?_⟩
    dsimp only
    rw [if_neg hstatus, getAll_stripHopHeaders_of_readable h]

end WarpSocks.Http
