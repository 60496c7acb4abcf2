import WarpSocks.Dns.Message
import WarpSocks.Machine.Loop
import WarpSocks.Table.Entries
import WarpSocks.Time

/-!
# Resolving a name

`DnsCache` and `resolve_inner`: the lookup in the cache, the query, and the loop that waits for the answer and
sends the query again.  What arrives at the query's socket and when the retry interval passes are the events of
the loop.  Instants are in nanoseconds.
-/

namespace WarpSocks.Dns

open Machine (Checked Round)

/-- A key of the cache: the server, the name in lower case and the type. -/
abbrev CacheKey := SocketAddr × String × RecordType

/-- `CacheEntry`. -/
structure CacheEntry where
  addrs : List IpAddr
  expiresAt : Nat
  deriving DecidableEq

/-- `DnsCache`. -/
structure DnsCache where
  entries : Finmap fun _ : CacheKey => CacheEntry

def CACHE_MIN_TTL : Duration := .fromSecs 5

def CACHE_MAX_TTL : Duration := .fromSecs 300

namespace DnsCache

/-- `DnsCache::get`. -/
def get (cache : DnsCache) (key : CacheKey) (now : Nat) : Option (List IpAddr) :=
  match cache.entries.lookup key with
  | none => none
  | some entry => if now < entry.expiresAt then some entry.addrs else none

/-- `DnsCache::put`, which looks at the clock before it clears expired entries and again for the new entry. -/
def put (cache : DnsCache) (key : CacheKey) (addrs : List IpAddr) (ttlSecs : UInt32) (clearedAt writtenAt : Nat) :
    DnsCache :=
  let ttl := (Duration.fromSecs ttlSecs.toNat).clamp CACHE_MIN_TTL CACHE_MAX_TTL
  let entries :=
    if 512 ≤ cache.entries.size then
      let kept := cache.entries.retain fun _ e => decide (clearedAt < e.expiresAt)
      if 512 ≤ kept.size then ∅ else kept
    else cache.entries
  ⟨entries.insert key ⟨addrs, writtenAt + ttl.asNanos⟩⟩

end DnsCache

/-- A datagram at the socket of the query. -/
structure Datagram where
  source : SocketAddr
  bytes : List UInt8
  deriving DecidableEq

/-- `UdpSocket::recv_from` of the netstack, with a datagram at hand: one that does not fit the buffer is taken
from the socket and reported as an error. -/
def recvFrom (capacity : Nat) (d : Datagram) : Except IoError (List UInt8 × SocketAddr) :=
  if capacity < d.bytes.length then .error ⟨.other, "truncated"⟩ else .ok (d.bytes, d.source)

/-- The query that `resolve_inner` has sent. -/
structure Query where
  server : SocketAddr
  key : CacheKey
  recordType : RecordType
  id : UInt16
  bytes : List UInt8

/-- What happens to the waiting query. -/
inductive Event where
  /-- A datagram is received; the instants are those of `put`, should it be called. -/
  | received (d : Datagram) (clearedAt writtenAt : Nat)
  /-- The socket fails. -/
  | failed (e : IoError)
  /-- `RETRY_INTERVAL` passes, and the query is sent again. -/
  | elapsed (sent : Except IoError Unit)

/-- The loop of `resolve_inner`: the cache, and the queries sent. -/
structure Waiting where
  cache : DnsCache
  sent : List (List UInt8)

/-- The end of `resolve_inner`. -/
structure Resolved where
  result : Checked Chain (List IpAddr)
  cache : DnsCache

namespace Query

variable (q : Query)

/-- The end with a datagram of the server.  That there is no such record is an answer too, and is kept for a short
time. -/
def conclude (cache : DnsCache) (bytes : List UInt8) (clearedAt writtenAt : Nat) : Resolved :=
  match parseDnsResponse bytes q.id q.recordType with
  | some (.ok (addrs, ttl)) =>
    let cacheTtl := if addrs = [] then UInt32.ofNat CACHE_MIN_TTL.secs else ttl
    ⟨pure addrs, cache.put q.key addrs cacheTtl clearedAt writtenAt⟩
  | some (.error e) => ⟨throw ("解析隧道内 DNS 响应失败" :: e), cache⟩
  | none => ⟨Checked.panic, cache⟩

/-- One round of the loop of `resolve_inner`. -/
def step (s : Waiting) : Event → Round Waiting Resolved
  | .received d clearedAt writtenAt =>
    match recvFrom 512 d with
    | .ok (bytes, source) =>
      if source = q.server then .stop (q.conclude s.cache bytes clearedAt writtenAt)
      -- from another source
      else .next s
    | .error e => .stop ⟨throw ["隧道内 UDP 接收失败", e.msg], s.cache⟩
  | .failed e => .stop ⟨throw ["隧道内 UDP 接收失败", e.msg], s.cache⟩
  | .elapsed (.ok ()) => .next { s with sent := s.sent ++ [q.bytes] }
  | .elapsed (.error e) => .stop ⟨throw ["重发 DNS 查询失败", e.msg], s.cache⟩

end Query

/-- What `resolve_inner` meets before it waits: the instant of the lookup in the cache, the drawn id, and the
outcomes of binding the socket and of sending the query. -/
structure Start where
  now : Nat
  id : UInt16
  bound : Except IoError Unit
  sent : Except IoError Unit

/-- `resolve_inner`, on the events that have happened: the end, if it has come to one. -/
def resolveInner (debug : String → String) (server : SocketAddr) (name : String) (recordType : RecordType)
    (cache : DnsCache) (start : Start) (events : List Event) : Option Resolved :=
  let key := (server, name.toLower, recordType)
  match cache.get key start.now with
  | some addrs => some ⟨pure addrs, cache⟩
  | none =>
    match encodeDnsQuery debug start.id name recordType with
    | .error e => some ⟨throw e, cache⟩
    | .ok bytes =>
      match orContext ["绑定隧道内 UDP socket 失败"] start.bound with
      | .error e => some ⟨throw e, cache⟩
      | .ok () =>
        match orContext ["发送 DNS 查询失败"] start.sent with
        | .error e => some ⟨throw e, cache⟩
        | .ok () => (Machine.run (Query.step ⟨server, key, recordType, start.id, bytes⟩) ⟨cache, [bytes]⟩ events).2

end WarpSocks.Dns
