import WarpSocks.Endpoint.Normalize
import WarpSocks.Http.Forward
import WarpSocks.IpDisplay

/-!
# The target of a proxy request

`target` of `http_proxy.rs` takes the host and the port from the authority of the URI, or from `Host` if the URI
has none.  The parser of the http crate for an authority is a parameter; what is read of an authority, its host
and its port, is modelled.

A host without brackets and user information is found again in the text a client writes for it, whatever the port
(`target_written`), and no request is taken that names no host, port 0 or a user (`target_eq_ok_iff`).
-/

namespace WarpSocks.Http

open Endpoint (bracketed)

/-- `http::uri::Authority`. -/
structure Authority where
  text : String
  deriving DecidableEq

namespace Authority

/-- What is behind the user information. -/
def hostPort (a : Authority) : String := ((Text.rsplitOnce a.text '@').map Prod.snd).getD a.text

/-- `Authority::host`. -/
def host (a : Authority) : String :=
  match Text.stripPrefix a.hostPort '[' with
  | some rest =>
    match Text.splitOnce rest ']' with
    | some (inside, _) => "[" ++ inside ++ "]"
    -- the parser takes no authority like this
    | none => a.hostPort
  | none => (Text.split a.hostPort ':').headD a.hostPort

/-- `Authority::port_u16`. -/
def portU16 (a : Authority) : Option UInt16 :=
  ((Text.rsplitOnce a.text ':').bind fun parts => Text.parseUnsigned 65536 parts.2).map UInt16.ofNat

end Authority

/-- `str::trim_start_matches`, for a character. -/
def trimStartMatches (s : String) (c : Char) : String := .ofList (s.toList.dropWhile (· == c))

/-- What `target` reads of a request. -/
structure Request where
  /-- The method is `CONNECT`. -/
  connect : Bool
  scheme : Option String
  authority : Option Authority
  headers : HeaderMap

/-- The authority of the URI, or the one in `Host`. -/
def Request.findAuthority (parse : String → Except Chain Authority) (r : Request) : Except Chain Authority :=
  match r.authority with
  | some authority => .ok authority
  | none =>
    match r.headers.get host with
    | none => .error ["缺少 Host"]
    | some value =>
      match value.toStr with
      | none => .error ["failed to convert header to a str"]
      | some text => parse text

/-- The port of a request: 80 if it is no `CONNECT` and names none. -/
def Request.port (r : Request) (authority : Authority) : Except Chain UInt16 :=
  if r.connect then
    match authority.portU16 with
    | some port => .ok port
    | none => .error ["CONNECT 缺少有效端口"]
  else if authority.text = authority.host then .ok 80
  else
    match authority.portU16 with
    | some port => .ok port
    | none => .error ["非法目标端口"]

/-- The host of an authority, without its brackets. -/
def Authority.bareHost (a : Authority) : String := Text.trimEndMatches (trimStartMatches a.host '[') ']'

/-- `target`. -/
def target (parse : String → Except Chain Authority) (r : Request) : Except Chain (Host × UInt16 × String) := do
  if !r.connect && r.scheme.any (· ≠ "http") then throw ["普通 HTTP 代理仅接受 http URI；HTTPS 请使用 CONNECT"]
  let authority ← r.findAuthority parse
  if authority.bareHost.isEmpty || '@' ∈ authority.text.toList then throw ["非法目标主机"]
  let port ← r.port authority
  if port = 0 then throw ["非法目标端口"]
  return (.parse authority.bareHost, port, authority.text)

/-! ### What is taken -/

variable {parse : String → Except Chain Authority} {r : Request}

/-- What a request that is taken has to have. -/
theorem target_eq_ok_iff {result : Host × UInt16 × String} :
    target parse r = .ok result ↔
      (r.connect = false → ∀ s, r.scheme = some s → s = "http") ∧ ∃ authority port, r.findAuthority parse =
        .ok authority ∧
        authority.bareHost ≠ "" ∧ '@' ∉ authority.text.toList ∧ r.port authority = .ok port ∧ port ≠ 0 ∧
        result = (.parse authority.bareHost, port, authority.text) := by
  have hscheme : (!r.connect && r.scheme.any (· ≠ "http")) = true ↔
      ¬(r.connect = false → ∀ s, r.scheme = some s → s = "http") := by
    simp only [Bool.and_eq_true, Bool.not_eq_true', Option.any_eq_true, decide_eq_true_eq]
    grind
  have hhost (a : Authority) : (a.bareHost.isEmpty || decide ('@' ∈ a.text.toList)) = true ↔
      ¬(a.bareHost ≠ "" ∧ '@' ∉ a.text.toList) := by
    simp only [Bool.or_eq_true, String.isEmpty_iff, decide_eq_true_eq]
    grind
  simp only [target, bind, Except.bind, pure, Except.pure, throw, throwThe, MonadExceptOf.throw]
  constructor
  · intro h
    split at h
    · cases h
    · rename_i hplain
      split at h
      · cases h
      · rename_i authority hauthority
        split at h
        · cases h
        · rename_i hbare
          split at h
          · cases h
          · rename_i port hport
            split at h
            · cases h
            · rename_i hzero
              have hbare := Decidable.not_not.1 (fun hn => hbare ((hhost authority).2 hn))
              exact ⟨Classical.byContradiction fun hn => hplain (hscheme.2 hn), authority, port, hauthority,
                hbare.1, hbare.2, hport, hzero, (Except.ok.inj h).symm⟩
  · rintro ⟨hplain, authority, port, hauthority, hne, huser, hport, hzero, rfl⟩
    rw [if_neg fun h => hscheme.1 h hplain, hauthority]
    dsimp only
    rw [if_neg fun h => (hhost authority).1 h ⟨hne, huser⟩, hport]
    dsimp only
    rw [if_neg hzero]

/-! ### What a client writes -/

/-- A host that has to be written neither with brackets of its own nor with user information. -/
def Clean (h : String) : Prop := h ≠ "" ∧ ∀ c ∈ h.toList, c ≠ '[' ∧ c ≠ ']' ∧ c ≠ '@'

/-- The text of a host and a port. -/
def written (h : String) (port : UInt16) : String := bracketed h ++ ":" ++ toString port.toNat

private theorem toList_written (h : String) (port : UInt16) :
    (written h port).toList = (bracketed h).toList ++ ':' :: (toString port.toNat).toList :=
  Endpoint.eq_colon_iff.1 rfl

private theorem mem_bracketed {h : String} {c : Char} (hc : c ∈ (bracketed h).toList) :
    c = '[' ∨ c ∈ h.toList ∨ c = ']' := by
  unfold bracketed at hc
  split at hc
  · simp only [String.toList_append, List.mem_append] at hc
    rcases hc with (hc | hc) | hc
    · exact .inl (List.mem_singleton.1 hc)
    · exact .inr (.inl hc)
    · exact .inr (.inr (List.mem_singleton.1 hc))
  · exact .inr (.inl hc)

private theorem Clean.at_notMem_bracketed {h : String} (hh : Clean h) : '@' ∉ (bracketed h).toList := by
  intro hat
  rcases mem_bracketed hat with hc | hc | hc
  · exact absurd hc (by decide)
  · exact (hh.2 _ hc).2.2 rfl
  · exact absurd hc (by decide)

private theorem Clean.at_notMem_written {h : String} (hh : Clean h) (port : UInt16) :
    '@' ∉ (written h port).toList := by
  rw [toList_written, List.mem_append, List.mem_cons]
  rintro (hat | hat | hat)
  · exact hh.at_notMem_bracketed hat
  · exact absurd hat (by decide)
  · exact absurd (Text.isDigit_of_mem_toString hat) (by decide)

private theorem hostPort_of_notMem {text : String} (h : '@' ∉ text.toList) : (Authority.mk text).hostPort = text := by
  unfold Authority.hostPort
  dsimp only
  rw [Text.rsplitOnce_eq_none_iff.2 h]
  rfl

/-- The host of a written text, with or without a port behind it. -/
private theorem Clean.host_eq {h text : String} (hh : Clean h) (tail : List Char) (htail : ∀ c ∈ tail.head?, c = ':')
    (htext : text.toList = (bracketed h).toList ++ tail) (hat : '@' ∉ text.toList) :
    (Authority.mk text).host = bracketed h := by
  unfold Authority.host
  rw [hostPort_of_notMem hat]
  unfold bracketed at htext ⊢
  split at htext
  · rename_i hcolon
    rw [if_pos hcolon]
    have hlist : text.toList = '[' :: (h.toList ++ ']' :: tail) := by
      rw [htext]
      simp
    have hstrip : Text.stripPrefix text '[' = some (.ofList (h.toList ++ ']' :: tail)) := by
      rw [Text.stripPrefix_eq_some_iff, hlist, String.toList_ofList]
    have hsplit : Text.splitOnce (.ofList (h.toList ++ ']' :: tail)) ']' = some (h, .ofList tail) := by
      rw [Text.splitOnce_eq_some_iff, String.toList_ofList, String.toList_ofList]
      exact ⟨rfl, fun hc => (hh.2 _ hc).2.1 rfl⟩
    rw [hstrip]
    dsimp only
    rw [hsplit]
  · rename_i hcolon
    rw [if_neg hcolon]
    have hstrip : Text.stripPrefix text '[' = none := by
      rw [Text.stripPrefix_eq_none_iff]
      intro cs hcs
      obtain ⟨c, ds, hds⟩ := List.exists_cons_of_ne_nil fun hnil => hh.1 (String.toList_inj.1 hnil)
      rw [htext, hds, List.cons_append, List.cons.injEq] at hcs
      exact (hh.2 c (by rw [hds]; exact List.mem_cons_self)).1 hcs.1
    rw [hstrip]
    dsimp only
    cases tail with
    | nil =>
      rw [List.append_nil] at htext
      rw [String.toList_inj.1 htext, Text.split_of_notMem hcolon]
      rfl
    | cons c rest =>
      obtain rfl : c = ':' := htail c rfl
      rw [Text.split_of_append (a := h) (b := .ofList rest) (by rw [htext, String.toList_ofList]) hcolon]
      rfl

private theorem Clean.trim_eq {h : String} (hh : Clean h) :
    Text.trimEndMatches (trimStartMatches (bracketed h) '[') ']' = h := by
  have hfirst : ∀ c ∈ h.toList.head?, (c == '[') = false := by
    intro c hc
    exact beq_eq_false_iff_ne.2 (hh.2 c (List.mem_of_mem_head? hc)).1
  have hlast : ∀ c ∈ h.toList.reverse.head?, (c == ']') = false := by
    intro c hc
    exact beq_eq_false_iff_ne.2 (hh.2 c (List.mem_reverse.1 (List.mem_of_mem_head? hc))).2.1
  obtain ⟨c, cs, hcs⟩ := List.exists_cons_of_ne_nil fun hnil => hh.1 (String.toList_inj.1 hnil)
  have hstart : h.toList.dropWhile (· == '[') = h.toList := Text.dropWhile_eq_self hfirst
  have hend : h.toList.rdropWhile (· == ']') = h.toList := by
    rw [List.rdropWhile, Text.dropWhile_eq_self hlast, List.reverse_reverse]
  unfold bracketed
  split
  · have hopen : trimStartMatches ("[" ++ h ++ "]") '[' = h ++ "]" := by
      refine String.toList_inj.1 ?_
      rw [trimStartMatches, String.toList_ofList]
      have hlist : ("[" ++ h ++ "]").toList = '[' :: (h.toList ++ [']']) := by simp
      rw [hlist, List.dropWhile_cons_of_pos rfl, String.toList_append]
      refine Text.dropWhile_eq_self ?_
      rw [hcs, List.cons_append]
      rw [hcs] at hfirst
      exact hfirst
    refine String.toList_inj.1 ?_
    rw [hopen, Text.trimEndMatches, String.toList_ofList, String.toList_append, List.rdropWhile, List.reverse_append]
    have hclose : ("]".toList.reverse ++ h.toList.reverse) = ']' :: h.toList.reverse := rfl
    rw [hclose, List.dropWhile_cons_of_pos rfl, Text.dropWhile_eq_self hlast, List.reverse_reverse]
  · rw [trimStartMatches, hstart, String.ofList_toList, Text.trimEndMatches, hend, String.ofList_toList]

private theorem Clean.bareHost_written {h : String} (hh : Clean h) (port : UInt16) :
    (Authority.mk (written h port)).bareHost = h ∧ (Authority.mk (written h port)).host = bracketed h := by
  have hhost := hh.host_eq (':' :: (toString port.toNat).toList) (fun c hc => (Option.some.inj hc).symm)
    (toList_written h port) (hh.at_notMem_written port)
  refine ⟨?_, hhost⟩
  unfold Authority.bareHost
  rw [hhost]
  exact hh.trim_eq

private theorem Clean.bareHost_bracketed {h : String} (hh : Clean h) :
    (Authority.mk (bracketed h)).bareHost = h ∧ (Authority.mk (bracketed h)).host = bracketed h := by
  have hhost := hh.host_eq [] (fun c hc => by cases hc) (List.append_nil _).symm hh.at_notMem_bracketed
  refine ⟨?_, hhost⟩
  unfold Authority.bareHost
  rw [hhost]
  exact hh.trim_eq

private theorem portU16_written (h : String) (port : UInt16) :
    (Authority.mk (written h port)).portU16 = some port := by
  have hsplit : Text.rsplitOnce (written h port) ':' = some (bracketed h, toString port.toNat) :=
    Text.rsplitOnce_eq_some_iff.2 ⟨toList_written h port, Endpoint.colon_notMem_toString _⟩
  unfold Authority.portU16
  dsimp only
  rw [hsplit, Option.bind_some, Text.parseUnsigned_toString port.toNat_lt, Option.map_some, UInt16.ofNat_toNat]

private theorem written_ne_bracketed (h : String) (port : UInt16) : written h port ≠ bracketed h := by
  intro heq
  have := congrArg (fun s => s.toList.length) heq
  simp only [toList_written, List.length_append, List.length_cons] at this
  omega

/-- The characters of a number. -/
private theorem mem_of_parseUnsigned {size n : Nat} {s : String} (h : Text.parseUnsigned size s = some n) :
    ∀ c ∈ s.toList, c = '+' ∨ c.isDigit = true := by
  have hdigits {cs : List Char} (h : Text.parseDigits size cs = some n) : ∀ c ∈ cs, c.isDigit = true := by
    unfold Text.parseDigits at h
    split at h
    · rename_i hcs
      exact fun c hc => List.all_eq_true.1 hcs.2.1 c hc
    · cases h
  unfold Text.parseUnsigned at h
  intro c hc
  split at h
  · rename_i d ds hs
    rw [hs] at hc
    rcases List.mem_cons.1 hc with hc | hc
    · exact .inl hc
    · exact .inr (hdigits h c hc)
  · exact .inr (hdigits h c hc)

/-- A host alone has no port: the last colon of one in brackets is followed by the closing one. -/
private theorem portU16_bracketed (h : String) : (Authority.mk (bracketed h)).portU16 = none := by
  unfold Authority.portU16
  rw [Option.map_eq_none_iff]
  dsimp only
  cases hsplit : Text.rsplitOnce (bracketed h) ':' with
  | none => rfl
  | some parts =>
    rw [Option.bind_some, Option.eq_none_iff_forall_not_mem]
    intro n hn
    obtain ⟨hlist, -⟩ := Text.rsplitOnce_eq_some_iff.1 (show _ = some (parts.1, parts.2) from hsplit)
    unfold bracketed at hlist
    split at hlist
    · have hlast := congrArg List.getLast? hlist
      have hclose : ("[" ++ h ++ "]").toList.getLast? = some ']' := by
        rw [String.toList_append]
        exact List.getLast?_append_cons _ _ _
      rw [hclose, List.getLast?_append_cons, List.getLast?_cons] at hlast
      cases hport : parts.2.toList.getLast? with
      | none =>
        rw [hport] at hlast
        exact absurd (Option.some.inj hlast) (by decide)
      | some d =>
        rw [hport] at hlast
        obtain rfl : ']' = d := Option.some.inj hlast
        rcases mem_of_parseUnsigned hn _ (List.mem_of_getLast? hport) with hd | hd
        · exact absurd hd (by decide)
        · exact absurd hd (by decide)
    · rename_i hcolon
      exact hcolon (by rw [hlist]; simp)

/-- The texts a client writes for a host: with a port, and alone. -/
theorem target_written {h : String} (hh : Clean h) (connect : Bool) {scheme : Option String} (headers : HeaderMap)
    (hscheme : connect = false → ∀ s, scheme = some s → s = "http") {port : UInt16} (hport : port ≠ 0) :
    target parse ⟨connect, scheme, some ⟨written h port⟩, headers⟩ = .ok (.parse h, port, written h port) := by
  obtain ⟨hbare, hhost⟩ := hh.bareHost_written port
  have hne : ¬written h port = (Authority.mk (written h port)).host := by
    rw [hhost]
    exact written_ne_bracketed h port
  refine target_eq_ok_iff.2 ⟨hscheme, _, port, rfl, ?_, hh.at_notMem_written port, ?_, hport, ?_⟩
  · rw [hbare]
    exact hh.1
  · unfold Request.port
    rw [portU16_written]
    dsimp only
    rw [if_neg hne, ite_self]
  · rw [hbare]

private theorem target_bracketed {h : String} (hh : Clean h) {scheme : Option String} (headers : HeaderMap)
    (hscheme : ∀ s, scheme = some s → s = "http") :
    target parse ⟨false, scheme, some ⟨bracketed h⟩, headers⟩ = .ok (.parse h, 80, bracketed h) := by
  obtain ⟨hbare, hhost⟩ := hh.bareHost_bracketed
  refine target_eq_ok_iff.2 ⟨fun _ => hscheme, _, 80, rfl, ?_, hh.at_notMem_bracketed, ?_, by decide, ?_⟩
  · rw [hbare]
    exact hh.1
  · unfold Request.port
    rw [if_neg Bool.false_ne_true, if_pos hhost.symm]
  · rw [hbare]

private theorem target_connect_bracketed (h : String) {scheme : Option String} (headers : HeaderMap)
    (result : Host × UInt16 × String) : target parse ⟨true, scheme, some ⟨bracketed h⟩, headers⟩ ≠ .ok result := by
  intro hok
  obtain ⟨-, authority, port, hauthority, -, -, hport, -⟩ := target_eq_ok_iff.1 hok
  cases hauthority
  unfold Request.port at hport
  rw [portU16_bracketed] at hport
  cases hport

private theorem clean_display (ip : IpAddr) : Clean (IpText.display ip) := by
  have hparse := IpText.parse_display ip
  refine ⟨fun hnil => IpText.ne_nil_of_parse hparse (by rw [hnil]; rfl), fun c hc => ?_⟩
  have hbytes (d : Char) (hd : d.val.toNat < 128) (hno : IpText.isV6Byte (UInt8.ofNat d.val.toNat) = false) :
      c ≠ d := by
    rintro rfl
    have := IpText.isV6Byte_of_mem hparse _ ((Text.mem_asBytes_iff hd).2 hc)
    rw [hno] at this
    cases this
  exact ⟨hbytes '[' (by decide) (by decide), hbytes ']' (by decide) (by decide), hbytes '@' (by decide) (by decide)⟩

/-- The authority that a request names, in its URI or, if there is none, in `Host`. -/
def Request.Gives (parse : String → Except Chain Authority) (r : Request) (a : Authority) : Prop :=
  r.authority = some a ∨
    r.authority = none ∧ ∃ value text, r.headers.get host = some value ∧ value.toStr = some text ∧ parse text = .ok a

private theorem findAuthority_eq_ok_iff {a : Authority} : r.findAuthority parse = .ok a ↔ r.Gives parse a := by
  unfold Request.findAuthority Request.Gives
  cases r.authority with
  | some authority => simp
  | none =>
    cases r.headers.get host with
    | none => simp
    | some value =>
      cases htext : value.toStr with
      | none => simp [htext]
      | some text => simp [htext]

private theorem port_eq_ok_iff {a : Authority} {port : UInt16} :
    r.port a = .ok port ↔
      if r.connect = false ∧ a.text = a.host then port = 80 else a.portU16 = some port := by
  unfold Request.port
  cases r.connect with
  | true => cases a.portU16 <;> simp
  | false =>
    by_cases hhost : a.text = a.host
    · simp [hhost, eq_comm]
    · cases a.portU16 <;> simp [hhost]

/-- A request is taken exactly if its scheme is `http` or it has none, unless the method is `CONNECT`, and the
authority it names has a host, no user and a port other than 0 that can be read; then the host and the port are
those of the authority, and only for a host alone, and not with `CONNECT`, the port is 80.  What a client writes
for a host and a port is so taken for that host and port, with any method.  A host may be any text without
brackets and `@`, with brackets around it if it has a colon, and so the text of any address. -/
theorem target_exact (parse : String → Except Chain Authority) :
    (∀ r host port text, target parse r = .ok (host, port, text) ↔
      (r.connect = false → ∀ s, r.scheme = some s → s = "http") ∧
        ∃ a : Authority, r.Gives parse a ∧ a.bareHost ≠ "" ∧ '@' ∉ a.text.toList ∧ port ≠ 0 ∧
          (if r.connect = false ∧ a.text = a.host then port = 80 else a.portU16 = some port) ∧
          host = .parse a.bareHost ∧ text = a.text) ∧
    (∀ (connect : Bool) (scheme : Option String) (headers : HeaderMap) (h : String), Clean h →
      (connect = false → ∀ s, scheme = some s → s = "http") →
      (∀ port, port ≠ 0 →
        target parse ⟨connect, scheme, some ⟨written h port⟩, headers⟩ = .ok (.parse h, port, written h port)) ∧
      (if connect then ∀ result, target parse ⟨connect, scheme, some ⟨bracketed h⟩, headers⟩ ≠ .ok result
       else target parse ⟨connect, scheme, some ⟨bracketed h⟩, headers⟩ = .ok (.parse h, 80, bracketed h))) ∧
    (∀ ip, Clean (IpText.display ip) ∧ Host.parse (IpText.display ip) = .ip ip) := by
  refine ⟨fun r host port text => ?_, fun connect scheme headers h hh hscheme => ⟨fun port hport => ?_, ?_⟩,
    fun ip => ⟨clean_display ip, ?_⟩⟩
  · rw [target_eq_ok_iff]
    refine and_congr_right fun _ => ⟨?_, ?_⟩
    · rintro ⟨a, port', hgives, hne, huser, hport, hzero, heq⟩
      simp only [Prod.mk.injEq] at heq
      obtain ⟨hhost, hsame, htext⟩ := heq
      rw [hsame]
      exact ⟨a, findAuthority_eq_ok_iff.1 hgives, hne, huser, hzero, port_eq_ok_iff.1 hport, hhost, htext⟩
    · rintro ⟨a, hgives, hne, huser, hzero, hport, hhost, htext⟩
      refine ⟨a, port, findAuthority_eq_ok_iff.2 hgives, hne, huser, port_eq_ok_iff.2 hport, hzero, ?_⟩
      rw [hhost, htext]
  · exact target_written hh connect headers hscheme hport
  · split
    · rename_i hconnect
      rw [hconnect]
      exact target_connect_bracketed h headers
    · rename_i hconnect
      rw [Bool.eq_false_iff.2 hconnect] at hscheme ⊢
      exact target_bracketed hh headers (hscheme rfl)
  · unfold Host.parse
    rw [IpText.parse_display]

/-- `CONNECT` with an address in brackets, a `Host` without a port, and a port that cannot be read. -/
theorem target_exact_forms :
    let parse : String → Except Chain Authority := fun text => .ok ⟨text⟩
    let name : HeaderValue := ⟨Text.asBytes "a.example", by decide⟩
    target parse ⟨true, none, some ⟨written "::1" 8080⟩, ∅⟩ = .ok (.parse "::1", 8080, written "::1" 8080) ∧
    target parse ⟨false, none, none, HeaderMap.insert ∅ host name⟩ = .ok (.parse "a.example", 80, "a.example") ∧
    ∀ h port text, target parse ⟨false, none, some ⟨"a.example:99999"⟩, ∅⟩ ≠ .ok (h, port, text) := by
  intro parse name
  have hloopback : Clean "::1" := by
    refine ⟨by decide, fun c hc => ?_⟩
    obtain rfl | rfl : c = ':' ∨ c = '1' := by simpa using hc
    · decide
    · decide
  have hget : (HeaderMap.insert ∅ host name).get host = some name := by
    simp [HeaderMap.get, HeaderMap.getAll, HeaderMap.insert]
  have hbare : (Authority.mk "a.example").bareHost = "a.example" := by decide
  have hport : (Authority.mk "a.example:99999").portU16 = none := by decide
  refine ⟨((target_exact parse).2.1 true none ∅ "::1" hloopback fun h => (by cases h)).1 8080 (by decide), ?_,
    fun h port text hok => ?_⟩
  · refine ((target_exact parse).1 _ _ _ _).2 ⟨fun _ s hs => (by cases hs), ⟨"a.example"⟩,
      .inr ⟨rfl, name, "a.example", hget, by decide, rfl⟩, ?_⟩
    rw [hbare]
    exact ⟨by decide, by decide, by decide, by decide, rfl, rfl⟩
  · obtain ⟨-, a, hgives | ⟨hnone, -⟩, -, -, -, hread, -⟩ := ((target_exact parse).1 _ _ _ _).1 hok
    · obtain rfl : Authority.mk "a.example:99999" = a := Option.some.inj hgives
      rw [if_neg (by decide), hport] at hread
      cases hread
    · cases hnone

end WarpSocks.Http
