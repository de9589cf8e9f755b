/-!
# Telemetry attributes

Spans and events carry attributes: a key and a value that is a string, a signed 64-bit integer
or a boolean. Lists of attributes keep the order they were produced in, and a key may occur more
than once; a reader who wants them by key sorts them stably, so repeated keys keep their order.
-/

namespace TracePropagation

/-- The value of an attribute. -/
inductive AttrValue where
  /-- A string. -/
  | str (s : String)
  /-- A signed 64-bit integer. -/
  | int (i : Int)
  /-- A boolean. -/
  | bool (b : Bool)
  deriving DecidableEq, Repr

/-- An attribute. -/
structure Attribute where
  /-- The key. -/
  key : String
  /-- The value. -/
  value : AttrValue
  deriving DecidableEq, Repr

namespace Attribute

/-- A string attribute. -/
def text (key value : String) : Attribute := ⟨key, .str value⟩

/-- An integer attribute. -/
def int (key : String) (value : Int) : Attribute := ⟨key, .int value⟩

/-- A boolean attribute. -/
def flag (key : String) (value : Bool) : Attribute := ⟨key, .bool value⟩

/-- Attributes sorted by key, stably. -/
def sortByKey (as : List Attribute) : List Attribute :=
  as.mergeSort fun a b => a.key ≤ b.key

end Attribute

end TracePropagation
