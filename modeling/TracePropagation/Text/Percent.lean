import TracePropagation.Text.Hex
/-!
# Percent encoding

Baggage names, values and properties travel percent-encoded. Decoding turns `%` and two
hexadecimal digits into one byte and keeps every other character; the bytes must then form
UTF-8 text. Encoding writes the bytes of controls, space, `"`, the three separators of the
baggage header (`,`, `;` and `=`) and every non-ASCII character as `%` and two capital
hexadecimal digits; every other printable ASCII character stays, `%` included.

* `utf8Bytes` and `utf8Decode` go between characters and their UTF-8 bytes.
* `percentDecode` and `percentEncode` are the two directions.
-/

namespace TracePropagation.Text

/-- The UTF-8 bytes of a character. -/
def charUtf8 (c : Char) : List UInt8 :=
  let n := c.toNat
  if n < 0x80 then [n.toUInt8]
  else if n < 0x800 then [(0xC0 + n / 64).toUInt8, (0x80 + n % 64).toUInt8]
  else if n < 0x10000 then
    [(0xE0 + n / 4096).toUInt8, (0x80 + n / 64 % 64).toUInt8, (0x80 + n % 64).toUInt8]
  else
    [(0xF0 + n / 262144).toUInt8, (0x80 + n / 4096 % 64).toUInt8,
      (0x80 + n / 64 % 64).toUInt8, (0x80 + n % 64).toUInt8]

/-- The UTF-8 bytes of a list of characters. -/
def utf8Bytes (cs : List Char) : List UInt8 :=
  cs.flatMap charUtf8

/-- The six low bits of a continuation byte, if it is one. -/
def continuation (b : UInt8) : Option Nat :=
  if 0x80 ≤ b.toNat ∧ b.toNat < 0xC0 then some (b.toNat - 0x80) else none

/-- A code point that is no surrogate and at most U+10FFFF, as a character. -/
def scalar (n : Nat) : Option Char :=
  if h : n.isValidChar then some ⟨⟨n.toUInt32.toBitVec⟩, by
    simpa [UInt32.isValidChar, Nat.isValidChar, Nat.toUInt32, UInt32.toNat_ofNat] using
      (show Nat.isValidChar (n % 4294967296) from by
        rw [Nat.mod_eq_of_lt (by unfold Nat.isValidChar at h; omega)]; exact h)⟩
  else none

/-- Reads UTF-8 bytes as characters; `none` for a byte sequence that is not UTF-8: a stray
continuation byte, a truncated sequence, an overlong form, a surrogate or a value above
U+10FFFF. -/
def utf8Decode : List UInt8 → Option (List Char)
  | [] => some []
  | b :: rest =>
    let n := b.toNat
    if n < 0x80 then (utf8Decode rest).map (Char.ofNat n :: ·)
    else if 0xC2 ≤ n ∧ n < 0xE0 then
      match rest with
      | b1 :: rest' => do
        let x1 ← continuation b1
        let c ← scalar ((n - 0xC0) * 64 + x1)
        let cs ← utf8Decode rest'
        pure (c :: cs)
      | _ => none
    else if 0xE0 ≤ n ∧ n < 0xF0 then
      match rest with
      | b1 :: b2 :: rest' => do
        let x1 ← continuation b1
        let x2 ← continuation b2
        let v := (n - 0xE0) * 4096 + x1 * 64 + x2
        if v < 0x800 then none else
        let c ← scalar v
        let cs ← utf8Decode rest'
        pure (c :: cs)
      | _ => none
    else if 0xF0 ≤ n ∧ n < 0xF5 then
      match rest with
      | b1 :: b2 :: b3 :: rest' => do
        let x1 ← continuation b1
        let x2 ← continuation b2
        let x3 ← continuation b3
        let v := (n - 0xF0) * 262144 + x1 * 4096 + x2 * 64 + x3
        if v < 0x10000 then none else
        let c ← scalar v
        let cs ← utf8Decode rest'
        pure (c :: cs)
      | _ => none
    else none

/-- The bytes meant by a percent-encoded text: `%` and two hexadecimal digits stand for one byte,
every other character for its own UTF-8 bytes, a `%` without two digits after it included. -/
def percentBytes : List Char → List UInt8
  | [] => []
  | '%' :: h :: l :: rest =>
    match hexValue h, hexValue l with
    | some x, some y => (x * 16 + y).toUInt8 :: percentBytes rest
    | _, _ => charUtf8 '%' ++ percentBytes (h :: l :: rest)
  | c :: rest => charUtf8 c ++ percentBytes rest

/-- The text of a percent-encoded text, or `none` when its bytes are no UTF-8 text. -/
def percentDecode (cs : List Char) : Option (List Char) :=
  utf8Decode (percentBytes cs)

/-- A byte that is written as `%XX`: a control, space, `"`, `,`, `;`, `=`, or any byte of a
non-ASCII character. -/
def escapesByte (b : UInt8) : Bool :=
  b.toNat < 0x20 || b.toNat ≥ 0x7F || b.toNat == 0x20 || b.toNat == 0x22 ||
    b.toNat == 0x2C || b.toNat == 0x3B || b.toNat == 0x3D

/-- The capital hexadecimal digit of a value below sixteen. -/
def upperHexChar (d : Nat) : Char :=
  if d < 10 then Char.ofNat ('0'.toNat + d) else Char.ofNat ('A'.toNat + d - 10)

/-- Percent-encodes a text byte by byte; bytes that need no escape stay as their character. -/
def percentEncode (cs : List Char) : List Char :=
  (utf8Bytes cs).flatMap fun b =>
    if escapesByte b then ['%', upperHexChar (b.toNat / 16), upperHexChar (b.toNat % 16)]
    else [Char.ofNat b.toNat]

example : percentDecode "%20v".toList = some " v".toList := by decide
example : percentDecode "%zz".toList = some "%zz".toList := by decide
example : percentDecode "%FF".toList = none := by decide
example : percentEncode "a b".toList = "a%20b".toList := by decide
example : percentEncode "a,b=c;<%>".toList = "a%2Cb%3Dc%3B<%>".toList := by decide

end TracePropagation.Text
