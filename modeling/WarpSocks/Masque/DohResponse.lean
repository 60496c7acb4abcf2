import WarpSocks.Io
import WarpSocks.Text
import WarpSocks.Wire.Delimiter
import WarpSocks.Wire.Reader

/-!
# The response of the DNS over HTTPS server

`read_http_response` reads into a buffer until that has the end of the header block, hands the block to
`httparse`, and reads on until there are as many bytes behind it as the server has announced.  `httparse` is a
parameter.  The body is cut at the same places however the stream is cut into reads (`readHttpResponse_exact`).
-/

namespace WarpSocks.Doh

open Wire (Reader EndsAtFirst)

/-- `httparse::Header`. -/
structure Header where
  name : String
  value : List UInt8
  deriving DecidableEq

/-- `httparse::Response`, as far as it is read. -/
structure Response where
  code : Option UInt16
  headers : List Header
  deriving DecidableEq

/-- `httparse::Response::parse` with so many slots for headers: the response, or the text of the error. -/
abbrev Httparse := (slots : Nat) → List UInt8 → Except String Response

/-- The value of the first `Content-Length` header, a `usize`. -/
def contentLength (headers : List Header) : Option Nat := do
  let header ← headers.find? fun h => Text.eqIgnoreAsciiCase h.name "content-length"
  let value ← stringFromUtf8 header.value
  Text.parseUnsigned UInt64.size (Text.trim value)

/-- `b"\r\n\r\n"`. -/
def crlfCrlf : List UInt8 := [13, 10, 13, 10]

/-- The first loop of `read_http_response`: the buffer and where the header block ends in it. -/
def readHead (buf : List UInt8) (r : Reader IoError) : Except Chain (List UInt8 × Nat) × Reader IoError :=
  match _h : r.read 512 with
  | (.error e, r') => (.error ["读取 DoH 响应失败", e.msg], r')
  | (.ok [], r') => (.error ["DoH 连接在响应头读完前关闭"], r')
  | (.ok (b :: bs), r') =>
    let buf := buf ++ b :: bs
    match Wire.position crlfCrlf buf with
    | some pos => (.ok (buf, pos + 4), r')
    | none => if 8192 < buf.length then (.error ["DoH 响应头过大"], r') else readHead buf r'
termination_by r.bytes.length
decreasing_by exact Reader.length_read_lt _h

/-- The second loop of `read_http_response`, and what it cuts off. -/
def readBody (length : Nat) (body : List UInt8) (r : Reader IoError) : Except Chain (List UInt8) × Reader IoError :=
  if body.length < length then
    match _h : r.read 512 with
    | (.error e, r') => (.error ["读取 DoH 响应体失败", e.msg], r')
    | (.ok [], r') => (.error ["DoH 响应体未读满连接已关闭"], r')
    | (.ok (b :: bs), r') => readBody length (body ++ b :: bs) r'
  else (.ok (body.take length), r)
termination_by r.bytes.length
decreasing_by exact Reader.length_read_lt _h

/-- What `read_http_response` takes from the header block: the length of the body. -/
def announced (httparse : Httparse) (block : List UInt8) : Except Chain Nat :=
  match httparse 16 block with
  | .error e => .error ["解析 DoH 响应头失败", e]
  | .ok resp =>
    let status := resp.code.getD 0
    if status ≠ 200 then .error [s!"DoH 服务器返回状态 {status}"]
    else
      match contentLength resp.headers with
      | none => .error ["DoH 响应缺少合法的 content-length"]
      | some length => .ok length

/-- `read_http_response`. -/
def readHttpResponse (httparse : Httparse) (r : Reader IoError) : Except Chain (List UInt8) × Reader IoError :=
  match readHead [] r with
  | (.error e, r) => (.error e, r)
  | (.ok (buf, headerEnd), r) =>
    match announced httparse (buf.take headerEnd) with
    | .error e => (.error e, r)
    | .ok length => readBody length (buf.drop headerEnd) r

/-- A buffer that does not have the whole block yet is not at the end of the stream. -/
private theorem bytes_ne_nil {block rest buf : List UInt8} {r : Reader IoError}
    (hstream : buf ++ r.bytes = block ++ rest) (hlt : buf.length < block.length) : r.bytes ≠ [] := by
  intro hnil
  have hlen := congrArg List.length hstream
  rw [hnil, List.append_nil, List.length_append] at hlen
  omega

/-- The first loop ends when the header block has arrived, with its end and with what has come behind it. -/
private theorem readHead_exact {block rest : List UInt8} (hblock : EndsAtFirst crlfCrlf block)
    (hmax : block.length ≤ 8192)
    (buf : List UInt8) (r : Reader IoError) (hstream : buf ++ r.bytes = block ++ rest)
    (hlt : buf.length < block.length) :
    ∃ body r', readHead buf r = (.ok (block ++ body, block.length), r') ∧ body ++ r'.bytes = rest := by
  fun_induction readHead buf r with
  | case1 buf r e r' hread => exact absurd (Reader.bytes_of_read_error hread) (bytes_ne_nil hstream hlt)
  | case2 buf r r' hread => exact absurd (Reader.bytes_of_read_nil (by decide) hread) (bytes_ne_nil hstream hlt)
  | case3 buf r b bs r' hread buf' pos hpos =>
    replace hstream : buf' ++ r'.bytes = block ++ rest := by
      rwa [Reader.bytes_of_read_cons hread, ← List.append_assoc] at hstream
    by_cases hlt' : buf'.length < block.length
    · rw [Wire.position_of_lt hblock hstream hlt'] at hpos
      cases hpos
    · rw [Wire.position_of_le hblock hstream (Nat.le_of_not_lt hlt')] at hpos
      cases hpos
      have hfour : 4 ≤ block.length := hblock.length_le
      obtain ⟨body, hbuf, hrest⟩ : ∃ body, buf' = block ++ body ∧ body ++ r'.bytes = rest := by
        rcases List.append_eq_append_iff.1 hstream with ⟨c, hc, hr⟩ | ⟨c, hc, hr⟩
        · have hlen := congrArg List.length hc
          rw [List.length_append] at hlen
          obtain rfl : c = [] := List.length_eq_zero_iff.1 (by omega)
          exact ⟨[], by rw [hc, List.append_nil, List.append_nil], hr⟩
        · exact ⟨c, hc, hr.symm⟩
      refine ⟨body, r', ?_, hrest⟩
      rw [hbuf, show crlfCrlf.length = 4 from rfl, Nat.sub_add_cancel hfour]
  | case4 buf r b bs r' hread buf' hpos hlarge =>
    replace hstream : buf' ++ r'.bytes = block ++ rest := by
      rwa [Reader.bytes_of_read_cons hread, ← List.append_assoc] at hstream
    rw [Wire.position_of_le hblock hstream (by omega)] at hpos
    cases hpos
  | case5 buf r b bs r' hread buf' hpos hlarge ih =>
    replace hstream : buf' ++ r'.bytes = block ++ rest := by
      rwa [Reader.bytes_of_read_cons hread, ← List.append_assoc] at hstream
    refine ih hstream ?_
    by_contra hle
    rw [Wire.position_of_le hblock hstream (Nat.le_of_not_lt hle)] at hpos
    cases hpos

/-- The second loop returns the first bytes, if there are enough of them, and fails otherwise. -/
private theorem readBody_exact (length : Nat) (body : List UInt8) (r : Reader IoError) :
    (length ≤ (body ++ r.bytes).length → (readBody length body r).1 = .ok ((body ++ r.bytes).take length)) ∧
      ((body ++ r.bytes).length < length → ∃ e, (readBody length body r).1 = .error e) := by
  fun_induction readBody length body r with
  | case1 body r hlt e r' hread =>
    rw [Reader.bytes_of_read_error hread, List.append_nil]
    exact ⟨fun hle => absurd hlt (Nat.not_lt.2 hle), fun _ => ⟨_, rfl⟩⟩
  | case2 body r hlt r' hread =>
    rw [Reader.bytes_of_read_nil (by decide) hread, List.append_nil]
    exact ⟨fun hle => absurd hlt (Nat.not_lt.2 hle), fun _ => ⟨_, rfl⟩⟩
  | case3 body r hlt b bs r' hread ih =>
    rwa [Reader.bytes_of_read_cons hread, ← List.append_assoc]
  | case4 body r hge =>
    constructor
    · intro _
      rw [List.take_append_of_le_length (Nat.le_of_not_lt hge)]
    · intro hlt
      rw [List.length_append] at hlt
      omega

/-- A length is announced by a response with status 200 and a valid length. -/
theorem announced_eq_ok_iff {httparse : Httparse} {block : List UInt8} {resp : Response}
    (hparse : httparse 16 block = .ok resp) {n : Nat} :
    announced httparse block = .ok n ↔ resp.code = some 200 ∧ contentLength resp.headers = some n := by
  have hstatus : resp.code.getD 0 = 200 ↔ resp.code = some 200 := by
    cases resp.code with
    | none => simp
    | some code => simp
  unfold announced
  rw [hparse]
  dsimp only
  by_cases hcode : resp.code = some 200
  · rw [if_neg (not_not.2 (hstatus.2 hcode))]
    cases contentLength resp.headers with
    | none => simp
    | some length => simp [hcode]
  · rw [if_pos (mt hstatus.1 hcode)]
    simp [hcode]

/-- `read_http_response` on a stream that starts with a header block: what the block announces, cut from what
follows. -/
private theorem readHttpResponse_eq (httparse : Httparse) {block rest : List UInt8} (r : Reader IoError)
    (hblock : EndsAtFirst crlfCrlf block) (hmax : block.length ≤ 8192) (hstream : r.bytes = block ++ rest) :
    ∃ body r', body ++ r'.bytes = rest ∧ readHttpResponse httparse r =
      match announced httparse block with
      | .error e => (.error e, r')
      | .ok length => readBody length body r' := by
  have hpos : 0 < block.length := Nat.lt_of_lt_of_le (by decide) hblock.length_le
  obtain ⟨body, r', hhead, hrest⟩ := readHead_exact hblock hmax [] r hstream hpos
  refine ⟨body, r', hrest, ?_⟩
  rw [readHttpResponse, hhead]
  dsimp only
  rw [List.take_left, List.drop_left]

/-- The body is cut at the announced length, whatever the segmentation of the stream, and a response that
announces no length or has another status than 200 is refused. -/
theorem readHttpResponse_exact (httparse : Httparse) (block rest : List UInt8) (r : Reader IoError)
    (hblock : EndsAtFirst crlfCrlf block) (hmax : block.length ≤ 8192) (hstream : r.bytes = block ++ rest)
    (resp : Response) (hparse : httparse 16 block = .ok resp) :
    (∀ n, resp.code = some 200 → contentLength resp.headers = some n →
      (n ≤ rest.length → (readHttpResponse httparse r).1 = .ok (rest.take n)) ∧
        (rest.length < n → ∃ e, (readHttpResponse httparse r).1 = .error e)) ∧
    (resp.code ≠ some 200 → ∃ e, (readHttpResponse httparse r).1 = .error e) ∧
    (contentLength resp.headers = none → ∃ e, (readHttpResponse httparse r).1 = .error e) := by
  obtain ⟨body, r', hrest, hread⟩ := readHttpResponse_eq httparse r hblock hmax hstream
  have hrefused (h : ∀ n, announced httparse block ≠ .ok n) : ∃ e, (readHttpResponse httparse r).1 = .error e := by
    cases hannounced : announced httparse block with
    | error e => exact ⟨e, by rw [hread, hannounced]⟩
    | ok n => exact absurd hannounced (h n)
  refine ⟨?_, ?_, ?_⟩
  · intro n hcode hlength
    rw [hread, (announced_eq_ok_iff hparse).2 ⟨hcode, hlength⟩, ← hrest]
    exact readBody_exact n body r'
  · intro hcode
    exact hrefused fun n h => hcode ((announced_eq_ok_iff hparse).1 h).1
  · intro hlength
    refine hrefused fun n h => ?_
    rw [((announced_eq_ok_iff hparse).1 h).2] at hlength
    cases hlength

/-- The lines of a block, without the line breaks. -/
def blockLines : List UInt8 → List UInt8 → List (List UInt8)
  | line, 13 :: 10 :: rest => line :: blockLines [] rest
  | line, b :: rest => blockLines (line ++ [b]) rest
  | line, [] => [line]

/-- The status in a status line of HTTP/1. -/
def statusOf (line : List UInt8) : Option UInt16 := do
  guard (Text.asBytes "HTTP/1." <+: line)
  let digits ← stringFromUtf8 ((line.drop 9).take 3)
  (Text.parseUnsigned 1000 digits).map UInt16.ofNat

/-- A header line, cut at its colon, and the value without the space around it. -/
def headerOf (line : List UInt8) : Header where
  name := stringFromUtf8Lossy (line.takeWhile (· ≠ 58))
  value := (((line.dropWhile (· ≠ 58)).drop 1).dropWhile (· = 32)).rdropWhile (· = 32)

/-- A parser of complete header blocks: a status line, header lines and an empty line. -/
def Httparse.plain : Httparse := fun slots block =>
  match blockLines [] block with
  | [] => .error "invalid HTTP version"
  | first :: lines =>
    match statusOf first with
    | none => .error "invalid HTTP version"
    | some code =>
      let headers := lines.takeWhile (· ≠ [])
      if slots < headers.length then .error "too many headers" else .ok ⟨some code, headers.map headerOf⟩

/-- A block with two headers and three bytes behind it, two of them announced, in single reads. -/
theorem readHttpResponse_exact_two :
    let block := Text.asBytes "HTTP/1.1 200 OK\r\nServer: a\r\nContent-Length: 2\r\n\r\n"
    (readHttpResponse .plain ⟨block ++ [7, 8, 9], ⟨fun _ => 1, fun _ => Nat.one_pos⟩, none⟩).1 = .ok [7, 8] := by
  intro block
  have hblock : EndsAtFirst crlfCrlf block := Wire.endsAtFirst_of_position (by decide +kernel)
  have hparse : Httparse.plain 16 block =
      .ok ⟨some 200, [⟨"Server", Text.asBytes "a"⟩, ⟨"Content-Length", Text.asBytes "2"⟩]⟩ := by
    decide +kernel
  have hlength : contentLength [⟨"Server", Text.asBytes "a"⟩, ⟨"Content-Length", Text.asBytes "2"⟩] = some 2 := by
    have hwanted : "content-length".toLower = "content-length" := Text.toLower_eq (by decide)
    have hserver : "Server".toLower = "server" := Text.toLower_eq (by decide)
    have hheader : "Content-Length".toLower = "content-length" := Text.toLower_eq (by decide)
    have htext : stringFromUtf8 (Text.asBytes "2") = some "2" := by decide
    have hvalue : Text.parseUnsigned UInt64.size (Text.trim "2") = some 2 := by decide
    simp [contentLength, Text.eqIgnoreAsciiCase, hwanted, hserver, hheader, htext, hvalue]
  exact ((readHttpResponse_exact .plain block [7, 8, 9] _ hblock (by decide +kernel) rfl _ hparse).1 2 rfl hlength).1
    (by decide)

end WarpSocks.Doh
