import TracePropagation.Text.Ascii
/-!
# HTTP headers

A header map as requests carry it: names are case-insensitive tokens, kept in lowercase; a name
may occur several times, and values keep the order in which they were appended.

A value may hold any character but the controls (tab excepted) and DEL; a value with a
character outside visible ASCII and tab is kept but cannot be read as text, so readers treat it
as absent. Looking a name up gives its first value.
-/

namespace TracePropagation.Http

open TracePropagation.Text

/-- A character allowed in a header value. -/
def isValueChar (c : Char) : Bool :=
  (c.toNat ≥ 0x20 && c.toNat != 0x7F) || c = '\t'

/-- A character of a value that can be read as text: visible ASCII, space or tab. -/
def isTextChar (c : Char) : Bool :=
  isVisibleAscii c || c = '\t'

/-- Headers in order of appending, names in lowercase. -/
structure Headers where
  /-- The name-value pairs. -/
  entries : List (String × String)
  deriving DecidableEq, Repr

/-- Why a header cannot be appended. -/
inductive HeaderError where
  /-- The name is no token. -/
  | name (n : String)
  /-- The value holds a forbidden character. -/
  | value (v : String)
  deriving DecidableEq, Repr

namespace Headers

/-- No headers. -/
def empty : Headers := ⟨[]⟩

/-- Appends a header, its name in lowercase; refuses a name that is no token and a value with
a forbidden character. -/
def append (h : Headers) (name value : String) : Except HeaderError Headers :=
  if name.isEmpty || !name.toList.all isTokenChar then .error (.name name)
  else if !value.toList.all isValueChar then .error (.value value)
  else .ok ⟨h.entries ++ [(lowerAscii name, value)]⟩

/-- Appends headers in order. -/
def ofList (pairs : List (String × String)) : Except HeaderError Headers :=
  pairs.foldlM (fun h kv => h.append kv.1 kv.2) empty

/-- The first value of a name, if it can be read as text. -/
def get? (h : Headers) (name : String) : Option String :=
  (h.entries.lookup (lowerAscii name)).filter fun v => v.toList.all isTextChar

/-- All values of a name that can be read as text, joined with `,`; none if there is none. -/
def joined? (h : Headers) (name : String) : Option String :=
  let vs := (h.entries.filter fun e => e.1 = lowerAscii name).map (·.2)
    |>.filter fun v => v.toList.all isTextChar
  if vs.isEmpty then none else some (",".intercalate vs)

end Headers

/-- Whether a text is a request method: one of the standard ones, or a token of any other
spelling; case matters. -/
def isMethod (m : String) : Bool :=
  !m.isEmpty && m.toList.all isTokenChar

end TracePropagation.Http
