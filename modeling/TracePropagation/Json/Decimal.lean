import TracePropagation.Json.ReadError
/-!
# Reading decimal numbers

A request's number is read digit by digit into a significand below `2^64` and a power of ten.
Integer digits that no longer fit the significand count as powers of ten, fraction digits that
no longer fit are dropped, and an exponent is read into a signed 32-bit word; an exponent that
outgrows the word is an error when it would make a non-zero number huge, and otherwise makes
it zero.

An integer without fraction and exponent whose digits all fit is exact: a natural number, or
its negation when that stays within `-2^63` (negative zero is a double). Any other number is a
double formed in steps of double arithmetic, each step rounded: the significand is rounded to
a double, then multiplied by the double nearest to the power of ten, or divided by the one
nearest to its inverse, in steps of `10^308` for powers beyond that. This is not always the
double nearest to the decimal (`6.1e30` gives `6.099999999999999e30`), and the answers show
the double it gives. A number whose double is infinite is out of range.

Errors carry their position: `failAt` after the characters consumed, `failPeek` at the next.
-/

namespace TracePropagation.Json

/-- The largest significand, `2^64 - 1`. -/
def significandMax : Nat := Nat.pow 2 64 - 1

/-- The largest exponent, `2^31 - 1`. -/
def exponentMax : Nat := Nat.pow 2 31 - 1

/-- Whether appending the digit `d` to `a` passes `limit`; the reader asks this before it takes
a digit into a bounded accumulator. -/
def passesLimit (a d limit : Nat) : Bool :=
  a ≥ limit / 10 && (a > limit / 10 || d > limit % 10)

/-- The value of a decimal digit character. -/
def digitOf (c : Char) : Nat := c.toNat - '0'.toNat

/-- The double nearest to `10^k`. -/
def powerOfTen (k : Nat) : Binary64 := Binary64.ofNat (Nat.pow 10 k)

/-- Scales a positive double by `10^exponent` in steps of double arithmetic: one product or
quotient by the double nearest to the power when it lies within `10^±308`, and otherwise
quotients by `10^308` until it does, unless the double is zero. A positive exponent beyond
`308` is infinite for every non-zero double. `steps` bounds the quotients by `10^308`. -/
def scaleByTen : Nat → Binary64 → Int → Binary64
  | 0, f, _ => f
  | steps + 1, f, exponent =>
    if -308 ≤ exponent && exponent ≤ 308 then
      if exponent ≥ 0 then f.mul (powerOfTen exponent.toNat)
      else f.div (powerOfTen (-exponent).toNat)
    else if f = Binary64.zero false then f
    else if exponent ≥ 0 then .infinite false
    else scaleByTen steps (f.div (powerOfTen 308)) (exponent + 308)

/-- The double of a significand and a power of ten, before its sign; `-exponent / 308 + 1`
steps always reach the range of the powers. -/
def fromParts (significand : Nat) (exponent : Int) : Binary64 :=
  scaleByTen ((-exponent).toNat / 308 + 1) (Binary64.ofNat significand) exponent

example : fromParts 61 29 = .finite false 5417888360170763 50 := by decide

/-- An `Int` clamped to the signed 32-bit range. -/
def clamp32 (i : Int) : Int :=
  max (-(exponentMax : Int) - 1) (min (exponentMax : Int) i)

/-- Forms a number as a double with its sign: an error after the consumed characters when it
is out of range. -/
def formDouble (negative : Bool) (significand : Nat) (exponent : Int) (rest : List Char) :
    Except ReadError (Number × List Char) :=
  let d := fromParts significand exponent
  if d.isFinite then .ok (.float (d.withSign negative), rest)
  else .error (failAt .numberOutOfRange rest)

/-- An integer whose digits all fit the significand: exact when it is a natural number or a
negative one from `-2^63`, a double otherwise. -/
def wholeNumber (negative : Bool) (n : Nat) : Number :=
  if !negative then .int n
  else if 0 < n && n ≤ Nat.pow 2 63 then .int (-(n : Int))
  else .float (Binary64.ofNat n).neg

/-- The digits of an exponent after its first one, accumulated in `exp`. -/
def exponentDigits (negative : Bool) (significand : Nat) (positive : Bool) (start : Int)
    (exp : Nat) : List Char → Except ReadError (Number × List Char)
  | c :: r =>
    if c.isDigit then
      if passesLimit exp (digitOf c) exponentMax then
        if significand ≠ 0 && positive then .error (failAt .numberOutOfRange r)
        else .ok (.float (Binary64.zero negative), r.dropWhile Char.isDigit)
      else exponentDigits negative significand positive start (exp * 10 + digitOf c) r
    else
      formDouble negative significand (clamp32 (if positive then start + exp else start - exp))
        (c :: r)
  | [] =>
    formDouble negative significand (clamp32 (if positive then start + exp else start - exp)) []

/-- The exponent part after its `e`: an optional sign, then at least one digit. -/
def exponentPart (negative : Bool) (significand : Nat) (start : Int) (cs : List Char) :
    Except ReadError (Number × List Char) :=
  let (positive, r) := match cs with
    | '+' :: r => (true, r)
    | '-' :: r => (false, r)
    | r => (true, r)
  match r with
  | [] => .error (failAt .eofValue [])
  | c :: r' =>
    if c.isDigit then exponentDigits negative significand positive start (digitOf c) r'
    else .error (failAt .invalidNumber r')

/-- What may follow the digits of a fraction or a long integer: an exponent, or the end. -/
def afterDigits (negative : Bool) (significand : Nat) (exponent : Int) :
    List Char → Except ReadError (Number × List Char)
  | 'e' :: r => exponentPart negative significand exponent r
  | 'E' :: r => exponentPart negative significand exponent r
  | r => formDouble negative significand exponent r

/-- The digits of a fraction, `taken` of them in the significand so far. -/
def fractionDigits (negative : Bool) (significand : Nat) (start : Int) (taken : Nat) :
    List Char → Except ReadError (Number × List Char)
  | c :: r =>
    if c.isDigit then
      if passesLimit significand (digitOf c) significandMax then
        afterDigits negative significand (start - taken) ((c :: r).dropWhile Char.isDigit)
      else fractionDigits negative (significand * 10 + digitOf c) start (taken + 1) r
    else if taken = 0 then .error (failPeek .invalidNumber (c :: r))
    else afterDigits negative significand (start - taken) (c :: r)
  | [] =>
    if taken = 0 then .error (failPeek .eofValue [])
    else formDouble negative significand (start - taken) []

/-- What follows the integer digits: a fraction, an exponent, or the end. A long integer, whose
digits did not all fit, is formed as a double; any other integer is a whole number. -/
def afterInteger (negative : Bool) (significand : Nat) (extra : Nat) (long : Bool) :
    List Char → Except ReadError (Number × List Char)
  | '.' :: r => fractionDigits negative significand extra 0 r
  | 'e' :: r => exponentPart negative significand extra r
  | 'E' :: r => exponentPart negative significand extra r
  | r =>
    if long then formDouble negative significand extra r
    else .ok (wholeNumber negative significand, r)

/-- The integer digits after the first, accumulated in the significand while they fit. -/
def integerDigits (negative : Bool) (significand : Nat) :
    List Char → Except ReadError (Number × List Char)
  | c :: r =>
    if c.isDigit then
      if passesLimit significand (digitOf c) significandMax then
        let (ds, rest) := ((c :: r).takeWhile Char.isDigit, (c :: r).dropWhile Char.isDigit)
        afterInteger negative significand ds.length true rest
      else integerDigits negative (significand * 10 + digitOf c) r
    else afterInteger negative significand 0 false (c :: r)
  | [] => .ok (wholeNumber negative significand, [])

/-- Reads a number of a request and returns it with what follows it: an optional minus, then
an integer without leading zeros, an optional fraction and an optional exponent, within the
range of the doubles. -/
def readNumber (cs : List Char) : Except ReadError (Number × List Char) :=
  let (negative, body) := match cs with
    | '-' :: r => (true, r)
    | r => (false, r)
  match body with
  | [] => .error (failAt .eofValue [])
  | '0' :: r =>
    match r with
    | c :: _ =>
      if c.isDigit then .error (failPeek .invalidNumber r)
      else afterInteger negative 0 0 false r
    | [] => .ok (wholeNumber negative 0, [])
  | c :: r =>
    if c.isDigit then integerDigits negative (digitOf c) r
    else .error (failAt .invalidNumber r)

example : ((readNumber "25,".toList).toOption.map Prod.snd) = some [','] := by decide
example : ((readNumber "0e999999999999".toList).toOption.map Prod.snd) = some [] := by decide

end TracePropagation.Json
