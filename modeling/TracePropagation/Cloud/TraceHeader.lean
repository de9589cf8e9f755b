import TracePropagation.Trace.Context
import TracePropagation.Text.Blank
import TracePropagation.Text.Split
import TracePropagation.Text.Hex
/-!
# The cloud trace header

The function runtime names the active trace in a header of `;`-separated `key=value`
segments, for instance `Root=1-5759e988-bd862e3fe1be46a994272793;Parent=53995c3f42cd8ad8;
Sampled=1`. Each segment is trimmed and cut at its first `=`; a segment without `=` is skipped.
`Root` is `1-`, 8 hexadecimal digits of the epoch and 24 of a random part, which together give
the 128-bit trace id; `Parent` is the span id in 16 hexadecimal digits; both take digits of
either case. A malformed `Root` or `Parent` anywhere rejects the whole header, a later good one
replaces an earlier one, and `Sampled` counts only when it is exactly `1`. Both ids must be
present and the span context valid; it is marked remote.

The header comes from the invocation, or else from an environment variable; an empty text
counts as absent.
-/

namespace TracePropagation.CloudTrace

open TracePropagation.Text

/-- The environment variable that may hold the header. -/
def envVar : String := "_X_AMZN_TRACE_ID"

/-- Reads the `Root` value: version `1`, then the epoch and random parts of the trace id. -/
def parseRoot (v : List Char) : Option TraceId :=
  match piecesUpTo '-' 3 v with
  | [version, epoch, random] =>
    if version ≠ ['1'] || epoch.length ≠ 8 || random.length ≠ 24 then none
    else do
      let e ← decodeHex 4 epoch
      let r ← decodeHex 12 random
      pure (TraceId.ofNat (bytesValue (e ++ r)))
  | _ => none

/-- Reads the `Parent` value: a span id in 16 hexadecimal digits. -/
def parseParent (v : List Char) : Option SpanId :=
  (decodeHex 8 v).map fun bs => SpanId.ofNat (bytesValue bs)

/-- What the segments read so far say. -/
structure Fields where
  /-- The last `Root`. -/
  root : Option TraceId := none
  /-- The last `Parent`. -/
  parent : Option SpanId := none
  /-- The last `Sampled` says `1`. -/
  sampled : Bool := false

/-- Takes one `key=value` segment into account; `none` rejects the header. -/
def Fields.add (fs : Fields) (kv : List Char × List Char) : Option Fields :=
  let (k, v) := kv
  if k = "Root".toList then (parseRoot v).map fun t => { fs with root := some t }
  else if k = "Parent".toList then (parseParent v).map fun s => { fs with parent := some s }
  else if k = "Sampled".toList then some { fs with sampled := v = ['1'] }
  else some fs

/-- The remote span context named by a header, if it is valid. -/
def parse (header : String) : Option SpanContext := do
  let segments := (pieces ';' header.toList).filterMap fun seg => splitOnce '=' (trim seg)
  let fs ← segments.foldlM Fields.add {}
  let t ← fs.root
  let s ← fs.parent
  let sc : SpanContext :=
    ⟨t, s, if fs.sampled then .sampled else .none, true, .empty⟩
  if sc.isValid then some sc else none

/-- The context of a header. -/
def context (header : String) : Option Context :=
  (parse header).map Context.ofSpanContext

/-- The header of an invocation: its own, if not empty, or else the environment's. -/
def header (invocation env : Option String) : Option String :=
  match invocation.filter (!·.isEmpty) with
  | some h => some h
  | none => env.filter (!·.isEmpty)

end TracePropagation.CloudTrace
