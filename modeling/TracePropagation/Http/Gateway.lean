import TracePropagation.Http.Headers
import TracePropagation.Http.Host
import TracePropagation.Propagation.Propagator
import TracePropagation.Telemetry.Attribute
/-!
# Requests from an API gateway

An HTTP request as a function receives it from an API gateway, in the two payload versions.
The parent context is read from the single-value headers through the propagator. The span
attributes describe the request: method, scheme (from `x-forwarded-proto`), path, server
address and port (from `host`), then the route, query, client address, user agent and protocol
version where known. Version 1 payloads read a header from all its values joined with `,`,
falling back to the single-value headers.

* The route of a version 2 request is its route key after the first space.
* The protocol version is the text after `HTTP/` with every trailing `.0` removed.
-/

namespace TracePropagation.Http

open TracePropagation.Text

/-- A version 2 request. -/
structure RequestV2 where
  /-- The headers. -/
  headers : Headers
  /-- The method. -/
  method : String
  /-- The path of the request context. -/
  path : Option String
  /-- The raw path. -/
  rawPath : Option String
  /-- The route key, such as `GET /users/{id}`. -/
  routeKey : Option String
  /-- The raw query string. -/
  rawQueryString : Option String
  /-- The client address. -/
  sourceIp : Option String
  /-- The protocol, such as `HTTP/1.1`. -/
  protocol : Option String
  deriving DecidableEq, Repr

/-- A version 1 request. -/
structure RequestV1 where
  /-- The single-value headers. -/
  headers : Headers
  /-- The multi-value headers. -/
  multiValueHeaders : Headers
  /-- The method. -/
  method : String
  /-- The path. -/
  path : Option String
  /-- The resource, which is the route. -/
  resource : Option String
  /-- The client address. -/
  sourceIp : Option String
  /-- The protocol. -/
  protocol : Option String
  deriving DecidableEq, Repr

/-- The protocol version of a protocol text: after `HTTP/`, less every trailing `.0`. -/
def protocolVersion (protocol : String) : String :=
  let cs := protocol.toList
  if "HTTP/".toList.isPrefixOf cs then
    String.ofList (stripZeroSuffixes (cs.drop 5).reverse).reverse
  else protocol
where
  /-- Drops `.0` from the front of a reversed text as often as it stands there. -/
  stripZeroSuffixes : List Char → List Char
    | '0' :: '.' :: rest => stripZeroSuffixes rest
    | cs => cs

/-- The route of a route key: the text after its first space, or the whole key. -/
def routeOf (key : String) : String :=
  match splitOnce ' ' key.toList with
  | some (_, route) => String.ofList route
  | none => key

/-- The attributes every request has: method, scheme, path, server address and port. -/
def baseAttributes (scheme target : Option String) (method : String) (host : Option String) :
    List Attribute :=
  let serverAttrs := match host with
    | some h =>
      let (name, port) := hostAndPort scheme h
      Attribute.text "server.address" name ::
        (match port with
          | some p => [Attribute.int "server.port" p]
          | none => [])
    | none => []
  [Attribute.text "http.request.method" method] ++
    (scheme.map fun s => [Attribute.text "url.scheme" s]).getD [] ++
    (target.map fun t => [Attribute.text "url.path" t]).getD [] ++
    serverAttrs

/-- An attribute if its value is known. -/
def optAttribute (key : String) : Option String → List Attribute
  | some v => [Attribute.text key v]
  | none => []

namespace RequestV2

/-- The parent context in the headers. -/
def extract (r : RequestV2) (p : Propagator) : Context :=
  p.extract r.headers.get?

/-- The span attributes of the request. -/
def attributes (r : RequestV2) : List Attribute :=
  baseAttributes (r.headers.get? "x-forwarded-proto") (r.path.orElse fun _ => r.rawPath)
      r.method (r.headers.get? "host") ++
    optAttribute "http.route" (r.routeKey.map routeOf) ++
    optAttribute "url.query" (r.rawQueryString.filter (!·.isEmpty)) ++
    optAttribute "client.address" r.sourceIp ++
    optAttribute "user_agent.original" (r.headers.get? "user-agent") ++
    optAttribute "network.protocol.version" (r.protocol.map protocolVersion)

end RequestV2

namespace RequestV1

/-- The parent context in the single-value headers. -/
def extract (r : RequestV1) (p : Propagator) : Context :=
  p.extract r.headers.get?

/-- A header: all multi-value values joined, or else the single value. -/
def header (r : RequestV1) (name : String) : Option String :=
  (r.multiValueHeaders.joined? name).orElse fun _ => r.headers.get? name

/-- The span attributes of the request. -/
def attributes (r : RequestV1) : List Attribute :=
  baseAttributes (r.header "x-forwarded-proto") r.path r.method (r.header "host") ++
    optAttribute "http.route" r.resource ++
    optAttribute "client.address" r.sourceIp ++
    optAttribute "user_agent.original" (r.header "user-agent") ++
    optAttribute "network.protocol.version" (r.protocol.map protocolVersion)

end RequestV1

example : protocolVersion "HTTP/2.0.0" = "2" := by decide
example : protocolVersion "HTTP/.0" = "" := by decide

end TracePropagation.Http
