import WarpSocks.Http.Target
import WarpSocks.Socks5.Session

/-!
# The requests of a proxy connection

`forward` of `http_proxy.rs` as a whole, for the requests that hyper hands to the service of `handle_client` one
after the other: the target is read and dialled, and `CONNECT` leaves a tunnel in a channel that has room for one.
What hyper reads from the client and what the server behind a connection answers are inputs; bodies and the
rewritten URI are left out.

Over a whole connection the targets that are dialled are those that its requests name, in their order
(`dialled_run`).
-/

namespace WarpSocks.Http

open Socks5 (Connected Handover Outbound Session SessionM)

/-- `HeaderValue::from_str`. -/
def HeaderValue.fromStr (s : String) : Option HeaderValue :=
  if h : (Text.asBytes s).all isValueByte then some ⟨Text.asBytes s, h⟩ else none

/-- What `forward` meets: the backend, the parser of authorities, and what the server on a connection answers. -/
structure Surroundings where
  outbound : Outbound
  parse : String → Except Chain Authority
  exchange : Connected → HeaderMap → Except Chain Response

/-- What the requests of a connection have come to: the calls of `connect_tcp`, and the tunnel in the channel. -/
structure Connection where
  dialled : List (Host × UInt16)
  tunnel : Option (String × Connected)

/-- `error_response`. -/
def errorResponse (status : Nat) : Response := ⟨status, ∅⟩

namespace Connection

def new : Connection := ⟨[], none⟩

/-- The end of `forward` for `CONNECT`. -/
def connected (c : Connection) (authority : String) (conn : Connected) : Except Chain Response × Connection :=
  match c.tunnel with
  | some _ => (.error ["HTTP 连接重复升级或已关闭"], c)
  | none => (.ok ⟨200, ∅⟩, { c with tunnel := some (authority, conn) })

/-- The end of `forward` for every other method. -/
def forwarded (env : Surroundings) (c : Connection) (r : Request) (authority : String) (conn : Connected) :
    Except Chain Response × Connection :=
  match HeaderValue.fromStr authority with
  | none => (.error ["failed to parse header value"], c)
  | some value =>
    match env.exchange conn (forwardRequest value r.headers) with
    | .error e => (.error e, c)
    | .ok response =>
      match forwardResponse (r.headers.get upgrade).isSome c.tunnel.isNone response with
      | .error e => (.error e, c)
      | .ok answer => (.ok answer, if response.status = 101 then { c with tunnel := some (authority, conn) } else c)

/-- `forward`. -/
def forward (env : Surroundings) (c : Connection) (r : Request) : Except Chain Response × Connection :=
  match target env.parse r with
  | .error _ => (.ok (errorResponse 400), c)
  | .ok (host, port, authority) =>
    let c := { c with dialled := c.dialled ++ [(host, port)] }
    match env.outbound.connectTcp host port with
    | .error e => (.error [e.msg], c)
    | .ok conn => if r.connect then c.connected authority conn else c.forwarded env r authority conn

/-- The service of `handle_client`. -/
def service (env : Surroundings) (c : Connection) (r : Request) : Response × Connection :=
  match c.forward env r with
  | (.ok response, c) => (response, c)
  | (.error _, c) => (errorResponse 502, c)

/-- The requests of a connection, one after the other. -/
def run (env : Surroundings) (requests : List Request) : Connection :=
  requests.foldl (fun c r => (c.service env r).2) new

end Connection

/-- What hyper makes of the client's stream: the requests that it hands to the service, and how serving them
ends. -/
structure Served where
  requests : List Request
  result : Except Chain Unit

/-- `handle_client`; the tunnel is awaited behind the requests. -/
def handleClient (env : Surroundings) (hyper : Session → Served × Session) : SessionM (Option Handover) := fun s =>
  let (served, s) := hyper s
  let c := Connection.run env served.requests
  let s := { s with dialled := s.dialled ++ c.dialled }
  match served.result with
  | .error e => (.error ("HTTP 代理连接结束异常" :: e), s)
  | .ok () => (.ok (c.tunnel.map fun (display, conn) => .tunnel display conn), s)

/-! ### What is dialled -/

variable {env : Surroundings} {c : Connection} {r : Request}

/-- The target that a request names. -/
def Request.named (parse : String → Except Chain Authority) (r : Request) : Option (Host × UInt16) :=
  match target parse r with
  | .ok (host, port, _) => some (host, port)
  | .error _ => none

private theorem dialled_connected (authority : String) (conn : Connected) :
    (c.connected authority conn).2.dialled = c.dialled := by
  unfold Connection.connected
  split <;> rfl

private theorem dialled_forwarded (authority : String) (conn : Connected) :
    (c.forwarded env r authority conn).2.dialled = c.dialled := by
  unfold Connection.forwarded
  split
  · rfl
  · split
    · rfl
    · split
      · rfl
      · dsimp only
        split <;> rfl

private theorem snd_service : (c.service env r).2 = (c.forward env r).2 := by
  unfold Connection.service
  split <;> simp only [*]

/-- A request dials the target it names, and nothing else. -/
private theorem dialled_service : (c.service env r).2.dialled = c.dialled ++ (r.named env.parse).toList := by
  rw [snd_service]
  unfold Connection.forward Request.named
  cases target env.parse r with
  | error e => exact (List.append_nil _).symm
  | ok named =>
    obtain ⟨host, port, authority⟩ := named
    dsimp only
    cases env.outbound.connectTcp host port with
    | error e => rfl
    | ok conn =>
      dsimp only
      split
      · exact dialled_connected authority conn
      · exact dialled_forwarded authority conn

theorem dialled_run (requests : List Request) :
    (Connection.run env requests).dialled = requests.filterMap (Request.named env.parse) := by
  -- induction from the last request, with what the ones before have dialled
  induction requests using List.reverseRecOn with
  | nil => rfl
  | append_singleton requests r ih =>
    rw [Connection.run, List.foldl_append]
    refine (dialled_service (c := Connection.run env requests)).trans ?_
    rw [ih, List.filterMap_append]
    cases hnamed : r.named env.parse with
    | none => simp [hnamed]
    | some named => simp [hnamed]

/-- `CONNECT` on a connection without a tunnel. -/
theorem service_connect {host : Host} {port : UInt16} {authority : String} {conn : Connected}
    (hconnect : r.connect = true)
    (htarget : target env.parse r = .ok (host, port, authority))
    (hconn : env.outbound.connectTcp host port = .ok conn) (hfree : c.tunnel = none) :
    c.service env r = (⟨200, ∅⟩, ⟨c.dialled ++ [(host, port)], some (authority, conn)⟩) := by
  simp only [Connection.service, Connection.forward, htarget, hconn, hconnect, if_true, Connection.connected, hfree]

end WarpSocks.Http
