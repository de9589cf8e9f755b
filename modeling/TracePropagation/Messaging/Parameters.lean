import TracePropagation.Messaging.Codec
/-!
# Request parameters

The query parameters of one outgoing request, in the order they were added; a key may occur
more than once, and a look-up finds the first. `messageAttributes` reads the indexed message
attributes back: every name key contributes its index, the name, and the first value under the
matching string-value key (or the empty text), stably sorted by index.
-/

namespace TracePropagation

/-- The query parameters of a request. -/
structure Parameters where
  /-- The pairs, in order of addition. -/
  pairs : List (String × String)
  deriving DecidableEq, Repr

namespace Parameters

/-- No parameters. -/
def empty : Parameters := ⟨[]⟩

/-- Appends a parameter. -/
def add (ps : Parameters) (k v : String) : Parameters := ⟨ps.pairs ++ [(k, v)]⟩

/-- The first value of a key. -/
def get? (ps : Parameters) (k : String) : Option String := ps.pairs.lookup k

/-- Whether a key occurs. -/
def contains (ps : Parameters) (k : String) : Bool := ps.pairs.any (·.1 = k)

/-- The number of parameters. -/
def size (ps : Parameters) : Nat := ps.pairs.length

/-- The indexed message attributes: index, name and string value, by index. -/
def messageAttributes (ps : Parameters) (p : Protocol) : List (Nat × String × String) :=
  let found := ps.pairs.filterMap fun (k, name) =>
    (p.attributeIndex k).map fun n => (n, name, (ps.get? (p.stringValueKey n)).getD "")
  found.mergeSort fun a b => a.1 ≤ b.1

end Parameters

end TracePropagation
