import TracePropagation.Messaging.Codec
import TracePropagation.Propagation.Propagator
import TracePropagation.Text.Ascii
/-!
# Reading attributes of received messages

A received message carries attributes by name, and each attribute decodes to a list of values
or to nothing (an unknown type). Names are matched ignoring the case of ASCII letters, an exact
match first; names that differ in case only are not expected side by side.

A propagator reads one text per header name: the values of the attribute joined with `,`.
Attributes that decode to nothing or to an empty list are not offered to it at all.

* `ReceivedAttributes.lookup` is the decoded values of a name.
* `ReceivedAttributes.get?` is the joined text a propagator reads.
* `ReceivedAttributes.extract` reads a fresh context through a propagator.
-/

namespace TracePropagation

/-- The entry of a name: the exact one, or else the first that matches ignoring ASCII case. -/
def findIgnoreCase {α : Type} (entries : List (String × α)) (name : String) : Option α :=
  match entries.lookup name with
  | some v => some v
  | none => (entries.find? fun e => Text.eqIgnoreAsciiCase e.1 name).map (·.2)

/-- The attributes of a received message, each with its decoded values. -/
structure ReceivedAttributes where
  /-- Names with their decoded values (`none` where the type cannot be decoded). -/
  entries : List (String × Option (List String))
  deriving DecidableEq, Repr

namespace ReceivedAttributes

/-- The attribute names. -/
def names (a : ReceivedAttributes) : List String := a.entries.map (·.1)

/-- The decoded values of a name. -/
def lookup (a : ReceivedAttributes) (name : String) : Option (List String) :=
  (findIgnoreCase a.entries name).join

/-- The joined texts of the attributes that have values. -/
def joined (a : ReceivedAttributes) : List (String × String) :=
  a.entries.filterMap fun (name, _) =>
    match a.lookup name with
    | some vs => if vs.isEmpty then none else some (name, ",".intercalate vs)
    | none => none

/-- The text a propagator reads for a header name. -/
def get? (a : ReceivedAttributes) (key : String) : Option String :=
  findIgnoreCase a.joined key

/-- The context a propagator reads from the attributes, starting from the empty one. -/
def extract (a : ReceivedAttributes) (p : Propagator) : Context :=
  p.extract a.get?

end ReceivedAttributes

end TracePropagation
