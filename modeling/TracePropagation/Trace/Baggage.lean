import TracePropagation.Text.Blank
/-!
# Baggage

Name-value pairs that travel with a trace, each with an optional metadata text. A baggage keeps
each name once and its entries in the order their names were first inserted; inserting an
existing name replaces the entry in place.

An insertion is refused, leaving the baggage unchanged, when the name is no token (empty, or a
character outside the visible ASCII characters or among `()<>@,;:\"/[]?=` and braces), when
the name, value and metadata together have more than 8192 bytes, when the baggage would then hold
more than 8192 bytes of names, values and metadata, or when a new name would make more than 64
entries.
-/

namespace TracePropagation

/-- One baggage entry. -/
structure BaggageEntry where
  /-- The name. -/
  name : String
  /-- The value. -/
  value : String
  /-- The metadata, possibly empty. -/
  metadata : String
  deriving DecidableEq, Repr

/-- The bytes an entry takes: name, value and metadata. -/
def BaggageEntry.size (e : BaggageEntry) : Nat :=
  e.name.utf8ByteSize + e.value.utf8ByteSize + e.metadata.utf8ByteSize

/-- The baggage of a context. -/
structure Baggage where
  /-- The entries, each name once, in order of first insertion. -/
  entries : List BaggageEntry
  deriving DecidableEq, Repr

namespace Baggage

/-- The most entries a baggage holds. -/
def maxEntries : Nat := 64

/-- The most bytes of names, values and metadata a baggage holds, and so also one entry. -/
def maxBytes : Nat := 8192

/-- The empty baggage. -/
def empty : Baggage := ⟨[]⟩

/-- Whether the baggage has no entry. -/
def isEmpty (b : Baggage) : Bool := b.entries.isEmpty

/-- The bytes of all entries. -/
def contentSize (b : Baggage) : Nat :=
  b.entries.foldr (fun e n => e.size + n) 0

/-- A character that may stand in a baggage name. -/
def isNameChar (c : Char) : Bool :=
  0x21 ≤ c.toNat && c.toNat ≤ 0x7E && !("()<>@,;:\\\"/[]?=".toList.contains c) &&
    c.toNat != 0x7B && c.toNat != 0x7D

/-- A name is a non-empty token. -/
def validName (n : String) : Bool :=
  !n.isEmpty && n.toList.all isNameChar

/-- The entry of a name. -/
def find? (b : Baggage) (name : String) : Option BaggageEntry :=
  b.entries.find? (·.name = name)

/-- Replaces the entry of the same name in place. -/
def replaceEntry (e : BaggageEntry) : List BaggageEntry → List BaggageEntry
  | [] => []
  | x :: rest => if x.name = e.name then e :: rest else x :: replaceEntry e rest

/-- Inserts an entry if the limits allow it, replacing one of the same name. -/
def insert (b : Baggage) (e : BaggageEntry) : Baggage :=
  if !validName e.name || e.size > maxBytes then b
  else
    match b.find? e.name with
    | none =>
      if b.contentSize + e.size > maxBytes || b.entries.length + 1 > maxEntries then b
      else ⟨b.entries ++ [e]⟩
    | some old =>
      if b.contentSize - old.value.utf8ByteSize - old.metadata.utf8ByteSize +
          e.value.utf8ByteSize + e.metadata.utf8ByteSize > maxBytes then b
      else ⟨replaceEntry e b.entries⟩

/-- The baggage of entries inserted one after the other into the empty baggage. -/
def ofEntries (es : List BaggageEntry) : Baggage :=
  es.foldl insert empty

end Baggage

end TracePropagation
