import TracePropagation.Config.Toml
/-!
# TOML documents: tables and headers

A document is read line by line. A key-value line adds to the current table; `[a.b]` defines
the table `a.b` and makes it current; `[[a.b]]` appends a table to the array `a.b` and makes it
current. Defining a table twice, defining a table that dotted keys made, or setting a key twice
refuses the document. A read document becomes a JSON-like object.
-/

namespace TracePropagation.Toml

open TracePropagation.Json

/-- Enters the table at a path and changes it; arrays of tables are entered at their last
table. -/
def updateAt : List String → (List (String × Node) → Option (List (String × Node))) →
    List (String × Node) → Option (List (String × Node))
  | [], f, entries => f entries
  | k :: ks, f, entries =>
    match entries.lookup k with
    | some (.table o sub) => (updateAt ks f sub).map fun sub' => replaceEntry k (.table o sub') entries
    | some (.tables items) =>
      match items.getLast? with
      | some last =>
        (updateAt ks f last).map fun last' => replaceEntry k (.tables (items.dropLast ++ [last'])) entries
      | none => none
    | _ => none

/-- Walks a header's path: missing parent tables are made implicitly, existing ones entered;
the last part is handed to `atEnd`. -/
def headerPath (atEnd : String → List (String × Node) → Option (List (String × Node))) :
    List String → List (String × Node) → Option (List (String × Node))
  | [], _ => none
  | [k], entries => atEnd k entries
  | k :: ks, entries =>
    match entries.lookup k with
    | none => (headerPath atEnd ks []).map fun sub => entries ++ [(k, .table .implicit sub)]
    | some (.table o sub) =>
      (headerPath atEnd ks sub).map fun sub' => replaceEntry k (.table o sub') entries
    | some (.tables items) =>
      match items.getLast? with
      | some last =>
        (headerPath atEnd ks last).map fun last' =>
          replaceEntry k (.tables (items.dropLast ++ [last'])) entries
      | none => none
    | some (.value _) => none

/-- Defines a table by a header: new, or made implicitly before. -/
def defineTable : String → List (String × Node) → Option (List (String × Node)) :=
  fun k entries =>
    match entries.lookup k with
    | none => some (entries ++ [(k, .table .header [])])
    | some (.table .implicit sub) => some (replaceEntry k (.table .header sub) entries)
    | _ => none

/-- Appends a table to an array of tables, making the array if it is new. -/
def appendTable : String → List (String × Node) → Option (List (String × Node)) :=
  fun k entries =>
    match entries.lookup k with
    | none => some (entries ++ [(k, .tables [[]])])
    | some (.tables items) => some (replaceEntry k (.tables (items ++ [[]])) entries)
    | _ => none

/-- Reads a header's key up to its closing bracket or brackets. -/
def headerKey (closing : List Char) (cs : List Char) : Option (List String × List Char) := do
  let (path, r) ← dottedKey (cs.length + 1) (skipSpace cs)
  let r := skipSpace r
  if closing.isPrefixOf r then
    let r ← endLine (r.drop closing.length)
    pure (path, r)
  else none

/-- Reads the lines of a document into the root table; `current` is the path of the table that
key-value lines add to. -/
def document : Nat → List (String × Node) → List String → List Char →
    Option (List (String × Node))
  | 0, _, _, _ => none
  | fuel + 1, entries, current, cs =>
    match skipSpace cs with
    | [] => some entries
    | '\n' :: r => document fuel entries current r
    | '\r' :: '\n' :: r => document fuel entries current r
    | '#' :: r => (skipComment r).bind (document fuel entries current)
    | '[' :: '[' :: r => do
      let (path, r) ← headerKey [']', ']'] r
      let entries ← headerPath appendTable path entries
      document fuel entries path r
    | '[' :: r => do
      let (path, r) ← headerKey [']'] r
      let entries ← headerPath defineTable path entries
      document fuel entries path r
    | line => do
      let (path, r) ← dottedKey (line.length + 1) line
      let r ← match skipSpace r with
        | '=' :: r => some (skipSpace r)
        | _ => none
      let (v, r) ← value (r.length + 1) 0 r
      let r ← endLine r
      let entries ← updateAt current (setDotted path v) entries
      document fuel entries current r

/-- Reads a document into its root table's entries, in order of definition; a byte order mark
may open the text. -/
def parse (text : String) : Option (List (String × TomlValue)) :=
  let cs := match text.toList with
    | '\uFEFF' :: r => r
    | r => r
  (document (cs.length + 2) [] [] cs).map entriesValue

/-- The key under which a date or time is held in its JSON form. -/
def datetimeKey : String := "$__toml_private_datetime"

mutual

/-- A TOML value as a JSON value. A date or time, which JSON lacks, becomes an object holding
its text (see `datetimeText`) under `datetimeKey`, so that it is never taken for a string. -/
def TomlValue.toJson : TomlValue → Value
  | .str s => .str s
  | .int i => .num (.int i)
  | .float d => .num (.float d)
  | .bool b => .bool b
  | .datetime t => .obj [(datetimeKey, .str (datetimeText t.toList))]
  | .array items => .arr (itemsToJson items)
  | .table entries => Value.object (entriesToJson entries)

/-- The JSON values of array items. -/
def itemsToJson : List TomlValue → List Value
  | [] => []
  | v :: rest => v.toJson :: itemsToJson rest

/-- The JSON members of table entries. -/
def entriesToJson : List (String × TomlValue) → List (String × Value)
  | [] => []
  | (k, v) :: rest => (k, v.toJson) :: entriesToJson rest

end

/-- A document as a JSON object, or `none` if it breaks the format. -/
def toJson (text : String) : Option Value :=
  (parse text).map fun entries => Value.object (entriesToJson entries)

end TracePropagation.Toml
