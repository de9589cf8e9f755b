import TracePropagation.Trace.Context
import TracePropagation.Text.Blank
import TracePropagation.Text.Split
import TracePropagation.Text.Percent
/-!
# The baggage header format

Baggage travels in one header: entries separated by `,`, each `name=value` followed by
properties separated by `;`. Reading decodes percent escapes in names, values and properties,
trims them, and joins the properties with `;` as the entry's metadata. An entry without `=`, or
whose name or value is no UTF-8 text after decoding, is dropped; a property that is no UTF-8
text is left out. The entries are then inserted one by one, so the limits of `Baggage.insert`
apply. A header that is present replaces the context's baggage; an absent one keeps it.

Writing percent-encodes the trimmed name and value, appends `;` and the metadata when there is
any, and joins the entries with `,`. Nothing is written for an empty baggage.
-/

namespace TracePropagation.BaggageHeader

open TracePropagation.Text

/-- The name of the header. -/
def header : String := "baggage"

/-- Text from characters. -/
def text (cs : List Char) : String := String.ofList cs

/-- Reads one entry: name and value before and after the first `=` (a second `=` ends the
value), the properties after it. -/
def readEntry (entry : List Char) : Option BaggageEntry :=
  match pieces ';' entry with
  | [] => none
  | nameValue :: props =>
    match pieces '=' nameValue with
    | name :: value :: _ => do
      let n ← percentDecode name
      let v ← percentDecode value
      let ps := props.filterMap fun p => (percentDecode p).map trim
      let metadata := (";".intercalate (ps.map text)).trimBlank
      pure ⟨text (trim n), text (trim v), metadata⟩
    | _ => none

/-- The baggage of a header text. -/
def parse (h : String) : Baggage :=
  Baggage.ofEntries ((pieces ',' h.toList).filterMap readEntry)

/-- Replaces the baggage by the one in the header, if the header is present. -/
def extract (get : String → Option String) (cx : Context) : Context :=
  match get header with
  | some h => cx.withBaggage (parse h)
  | none => cx

/-- The written form of one entry. -/
def renderEntry (e : BaggageEntry) : String :=
  let metadata := e.metadata.trimBlank
  text (percentEncode (trim e.name.toList)) ++ "=" ++ text (percentEncode (trim e.value.toList)) ++
    (if metadata.isEmpty then "" else ";" ++ metadata)

/-- The header text of a baggage. -/
def render (b : Baggage) : String :=
  ",".intercalate (b.entries.map renderEntry)

/-- The header written for a context: none for an empty baggage. -/
def inject (cx : Context) : List (String × String) :=
  if cx.baggage.isEmpty then [] else [(header, render cx.baggage)]

end TracePropagation.BaggageHeader
