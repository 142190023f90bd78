import Rproxy.L7.Header

/-!
# What a cache reads of requests and answers

Which requests the `cache` middleware may answer (`admits`), the key of a request, which answers may
be kept (`verdict`), and the entry a kept answer becomes.
-/

namespace Rproxy.Cache

/-! ## Requests -/

open HeaderValue Text

inductive Method where
  | get
  | head
  | other
deriving DecidableEq

/-- What the cache sees of a request: the parts of its head and `Ask`. -/
structure Request where
  method : Method
  headers : HeaderMap
  pathAndQuery : Option (List UInt8)
  host : List UInt8
  route : List UInt8
  https : Bool
  port : UInt16
  /-- On rules with `tls.client_auth`: whether a certificate was given, and its text. -/
  cert : Option (Bool × List UInt8)
  bodyEmpty : Bool
  path_line : ∀ pq, pathAndQuery = some pq → 0x0A ∉ pq
  host_nul : 0 ∉ host
  route_nul : 0 ∉ route

/-- `CacheSpec` checked, with what `Settings::of` checks of it. -/
structure Settings where
  ttl : Nat
  stale : Nat
  maxBody : Nat
  maxEntries : Nat
  maxMemory : Nat
  vary : List HeaderName
  status : List Nat
  shareCredentials : Bool
  ttl_min : 100000000 ≤ ttl
  max_entries : 1 ≤ maxEntries
  max_memory : maxBody ≤ maxMemory

abbrev authorization : HeaderName := ⟨"authorization"⟩
abbrev cookie : HeaderName := ⟨"cookie"⟩
abbrev proxyAuthorization : HeaderName := ⟨"proxy-authorization"⟩
abbrev expect : HeaderName := ⟨"expect"⟩
abbrev range : HeaderName := ⟨"range"⟩
abbrev upgrade : HeaderName := ⟨"upgrade"⟩
abbrev transferEncoding : HeaderName := ⟨"transfer-encoding"⟩
abbrev contentLength : HeaderName := ⟨"content-length"⟩
abbrev acceptEncoding : HeaderName := ⟨"accept-encoding"⟩
abbrev vary : HeaderName := ⟨"vary"⟩
abbrev contentEncoding : HeaderName := ⟨"content-encoding"⟩
abbrev cacheControl : HeaderName := ⟨"cache-control"⟩
abbrev setCookie : HeaderName := ⟨"set-cookie"⟩
abbrev contentType : HeaderName := ⟨"content-type"⟩
abbrev contentRange : HeaderName := ⟨"content-range"⟩
abbrev age : HeaderName := ⟨"age"⟩

variable (cfg : Settings) (r : Request)

def credentials : Bool :=
  r.headers.containsKey authorization || r.headers.containsKey cookie ||
    r.headers.containsKey proxyAuthorization || (r.cert.any fun c => c.1)

def admits : Bool :=
  (r.method = .get || r.method = .head) && !r.headers.containsKey expect &&
    !r.headers.containsKey range && !r.headers.containsKey upgrade &&
    !r.headers.containsKey transferEncoding &&
    ((r.headers.get contentLength).all fun v => v.bytes == [0x30]) &&
    (cfg.shareCredentials || !credentials r)

def eligible : Bool :=
  r.bodyEmpty && admits cfg r

def asciiWhitespace (b : UInt8) : Bool :=
  b == 0x20 || b == 0x09 || b == 0x0A || b == 0x0C || b == 0x0D

def lowerByte (b : UInt8) : UInt8 :=
  if 0x41 ≤ b && b ≤ 0x5A then b + 0x20 else b

def codings (values : List HeaderValue) : List (List UInt8) :=
  let all := values.flatMap fun v => v.bytes.splitOn 0x2C
  let all := all.map fun c => (c.filter fun b => !asciiWhitespace b).map lowerByte
  ((all.filter (· ≠ [])).mergeSort fun a b => decide (a ≤ b)).destutter (· ≠ ·)

def joined (headers : HeaderMap) (name : HeaderName) : Option (List UInt8) :=
  let values := headers.getAll name
  if values = [] then none
  else if name = acceptEncoding then some ([0x2C].intercalate (codings values))
  else some ([0x2C, 0x20].intercalate (values.map (·.bytes)))

def schemePort : List UInt8 :=
  ascii (if r.https then "https:" else "http:").toList ++
    ascii r.port.toNat.repr.toList

def target : List UInt8 :=
  r.pathAndQuery.getD [0x2F]

def varyPart (name : HeaderName) : List UInt8 :=
  match joined r.headers name with
  | some v => 0x0A :: 0x3D :: v
  | none => [0x0A]

def certPart : List UInt8 :=
  match r.cert with
  | some (_, cert) => 0x0A :: ascii "cert=".toList ++ cert
  | none => []

def key : List UInt8 :=
  r.route ++ 0 :: (schemePort r ++ 0 :: (r.host.map lowerByte ++ 0 ::
    (target r ++ (cfg.vary.flatMap (varyPart r) ++ certPart r))))

/-! ## Answers -/

structure Response where
  status : Nat
  headers : HeaderMap

def Response.isServerError (resp : Response) : Bool :=
  500 ≤ resp.status && resp.status ≤ 599

def eqIgnoreCase (a b : String) : Bool :=
  lower a == lower b

def varyNames (headers : HeaderMap) : List String :=
  (((((headers.getAll vary).filterMap toStr).flatMap (splitOn ',')).map
    fun n => lower (trim n)).filter (· ≠ ""))

/-- The headers an answer varies by: those in its `Vary`, and `Accept-Encoding` for an encoded
body. -/
def variesNames (headers : HeaderMap) : List HeaderName :=
  let names := (varyNames headers).filterMap HeaderName.fromBytes
  let encoded := (headers.get contentEncoding).any fun v =>
    v.bytes.map lowerByte != ascii "identity".toList
  if encoded && !names.contains acceptEncoding then names ++ [acceptEncoding] else names

abbrev Varies := List (HeaderName × Option (List UInt8))

def variesOf (headers request : HeaderMap) : Varies :=
  (variesNames headers).map fun n => (n, joined request n)

def sameValues (varies : Varies) (request : HeaderMap) : Bool :=
  varies.all fun v => joined request v.1 == v.2

def shareable (headers : HeaderMap) : Bool :=
  let directives :=
    ((headers.getAll cacheControl).filterMap toStr).flatMap (splitOn ',')
  let forbids := directives.any fun d =>
    let name := trim ((splitOn '=' d).headD "")
    ["no-store", "private", "no-cache"].any fun f => eqIgnoreCase name f
  !forbids && !headers.containsKey setCookie && !(varyNames headers).any (· == "*")

inductive Verdict where
  | keep
  | strike
  | reset
deriving DecidableEq

def verdict (resp : Response) : Verdict :=
  let h := resp.headers
  let streaming := ((h.get contentType).bind toStr).any fun t =>
    let t := t.toList.dropWhile isWhitespace
    17 ≤ t.length && eqIgnoreCase (String.ofList (t.take 17)) "text/event-stream"
  let tooBig := ((h.get contentLength).bind fun v =>
    v.toStr.bind (parseUnsigned (2 ^ 64 - 1))).any fun n => n > cfg.maxBody
  if !cfg.status.contains resp.status || h.containsKey contentRange then .reset
  else if !shareable h || streaming || tooBig then .strike
  else .keep

structure Entry where
  status : Nat
  headers : HeaderMap
  body : List UInt8
  stored : Nat
  freshUntil : Nat
  staleUntil : Nat
  /-- The answer's `Vary` headers with the values of the request it answered. -/
  varies : Varies
  age : Nat
  seq : Nat
  size : Nat

def Entry.fits (e : Entry) (request : HeaderMap) : Bool :=
  sameValues e.varies request

def lineSize (name : HeaderName) (len : Nat) : Nat :=
  byteLen name.text + len + 32

def makeEntry (now seq : Nat) (key : List UInt8) (resp : Response) (body : List UInt8)
    (request : HeaderMap) : Entry :=
  let headers := resp.headers.remove transferEncoding
  let headers :=
    if resp.status = 204 then headers.remove contentLength
    else headers.insert contentLength (.ofNat body.length)
  let given := ((headers.get age).bind fun v =>
    v.toStr.bind fun s => parseUnsigned (2 ^ 64 - 1) (trim s)).getD 0
  let headers := headers.remove age
  let varies := variesOf headers request
  { status := resp.status
    headers
    body
    stored := now
    freshUntil := now + cfg.ttl
    staleUntil := now + cfg.ttl + cfg.stale
    varies
    age := given
    seq
    size := body.length + (headers.map fun l => lineSize l.1 l.2.bytes.length).sum +
      (varies.map fun v => lineSize v.1 (v.2.elim 0 List.length)).sum + 2 * key.length + 256 }

end Rproxy.Cache
