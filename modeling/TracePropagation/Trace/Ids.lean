import TracePropagation.Text.Hex
import TracePropagation.Text.Radix
/-!
# Trace and span identifiers, trace flags

A trace id is a 128-bit number and a span id a 64-bit number; the number zero is the invalid
id of each kind. Both are written as lowercase hexadecimal of fixed width (32 and 16 digits),
and read from hexadecimal text of up to that many significant digits, a leading plus sign and
capital letters allowed, as the readers of the trace-parent header do. The trace flags are a
byte whose lowest bit says that the trace is sampled.
-/

namespace TracePropagation

open TracePropagation.Text

/-- A 128-bit trace id. -/
structure TraceId where
  /-- The id as a number. -/
  toNat : Nat
  /-- It fits 128 bits. -/
  toNat_lt : toNat < Nat.pow 2 128

/-- A 64-bit span id. -/
structure SpanId where
  /-- The id as a number. -/
  toNat : Nat
  /-- It fits 64 bits. -/
  toNat_lt : toNat < Nat.pow 2 64

namespace TraceId

instance : DecidableEq TraceId := fun a b =>
  if h : a.toNat = b.toNat then isTrue (by cases a; cases b; simp_all) else
    isFalse (fun e => h (e ▸ rfl))

/-- The invalid trace id, zero. -/
def invalid : TraceId := ⟨0, by decide⟩

/-- An id is valid when it is not zero. -/
def isValid (t : TraceId) : Bool := t.toNat != 0

/-- The id of a number, its high bits dropped. -/
def ofNat (n : Nat) : TraceId := ⟨n % Nat.pow 2 128, Nat.mod_lt _ (by decide)⟩

/-- The 32 lowercase hexadecimal digits. -/
def hex (t : TraceId) : String := String.ofList (hexDigits 32 t.toNat)

/-- Reads hexadecimal text: a plus sign, then one or more digits of either case, of value below
`2^128`. -/
def ofHex? (cs : List Char) : Option TraceId :=
  (readUnsigned 16 (Nat.pow 2 128) cs).map ofNat

end TraceId

namespace SpanId

instance : DecidableEq SpanId := fun a b =>
  if h : a.toNat = b.toNat then isTrue (by cases a; cases b; simp_all) else
    isFalse (fun e => h (e ▸ rfl))

/-- The invalid span id, zero. -/
def invalid : SpanId := ⟨0, by decide⟩

/-- An id is valid when it is not zero. -/
def isValid (s : SpanId) : Bool := s.toNat != 0

/-- The id of a number, its high bits dropped. -/
def ofNat (n : Nat) : SpanId := ⟨n % Nat.pow 2 64, Nat.mod_lt _ (by decide)⟩

/-- The 16 lowercase hexadecimal digits. -/
def hex (s : SpanId) : String := String.ofList (hexDigits 16 s.toNat)

/-- Reads hexadecimal text: a plus sign, then one or more digits of either case, of value below
`2^64`. -/
def ofHex? (cs : List Char) : Option SpanId :=
  (readUnsigned 16 (Nat.pow 2 64) cs).map ofNat

end SpanId

/-- The trace flags: a byte whose lowest bit marks a sampled trace. -/
structure TraceFlags where
  /-- The byte. -/
  bits : UInt8
  deriving DecidableEq, Repr

namespace TraceFlags

/-- No flag set. -/
def none : TraceFlags := ⟨0⟩

/-- Only the sampled flag. -/
def sampled : TraceFlags := ⟨1⟩

/-- Whether the sampled bit is set. -/
def isSampled (f : TraceFlags) : Bool := f.bits &&& 1 == 1

/-- The flags with every bit but the sampled one cleared. -/
def onlySampled (f : TraceFlags) : TraceFlags := ⟨f.bits &&& 1⟩

end TraceFlags

end TracePropagation
