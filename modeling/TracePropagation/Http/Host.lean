import TracePropagation.Text.Blank
import TracePropagation.Text.Split
import TracePropagation.Text.Radix
/-!
# Host and port of a request

The `Host` header names the server: the text before its first comma, trimmed, is split at its
first colon into host and port. A port is a decimal number below 65536, a leading plus sign
allowed; anything else leaves the port unknown. Without a colon the port follows from the
scheme: 80 for exactly `http`, 443 for exactly `https`, unknown otherwise.
-/

namespace TracePropagation.Http

open TracePropagation.Text

/-- The port of a scheme when the header names none. -/
def defaultPort : Option String → Option Nat
  | some "http" => some 80
  | some "https" => some 443
  | _ => none

/-- Host and port named by a `Host` header. -/
def hostAndPort (scheme : Option String) (header : String) : String × Option Nat :=
  let first := trim ((pieces ',' header.toList).headD [])
  match splitOnce ':' first with
  | some (host, port) => (String.ofList host, readUnsigned 10 65536 port)
  | none => (String.ofList first, defaultPort scheme)

example : hostAndPort (some "https") " api.example.com , x" = ("api.example.com", some 443) := by
  decide
example : hostAndPort none "h:+80" = ("h", some 80) := by decide

end TracePropagation.Http
