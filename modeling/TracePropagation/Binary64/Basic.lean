import TracePropagation.Text.Radix
/-!
# Doubles

The IEEE 754 binary64 numbers, computed exactly with naturals. A finite double is
`(-1)^negative · significand · 2^exponent` with a significand below `2^53` and an exponent from
`-1074` to `971`; a normal double has a significand of at least `2^52`, a subnormal one the
exponent `-1074`. That form is unique, so two doubles are equal exactly when they are the same
value (the two zeros apart).

Every operation here rounds an exact ratio: `roundRatio` gives the double nearest to
`num / den`, a tie going to the even significand, and an infinity beyond the largest double.
Products and quotients round the exact product or quotient of their operands, and a decimal
number rounds its exact value.

* `roundRatio` is the rounding; `ofNat`, `ofScientific` and `mul`, `div` are built on it.
* `readDecimal?` reads a decimal text: digits with an optional point and exponent.
-/

namespace TracePropagation

/-- An IEEE 754 binary64 value. -/
inductive Binary64 where
  /-- `(-1)^negative · significand · 2^exponent`, in the unique form described above. -/
  | finite (negative : Bool) (significand : Nat) (exponent : Int)
  /-- An infinity. -/
  | infinite (negative : Bool)
  /-- Not a number. -/
  | nan
  deriving DecidableEq, Repr, Inhabited

namespace Binary64

/-- The exponent of the subnormal doubles, whose unit is the least positive double. -/
def minExponent : Int := -1074

/-- The exponent of the largest doubles. -/
def maxExponent : Int := 971

/-- The least significand of a normal double, `2^52`. -/
def hiddenBit : Nat := Nat.pow 2 52

/-- A zero. -/
def zero (negative : Bool) : Binary64 := .finite negative 0 minExponent

/-- Whether the value is finite. -/
def isFinite : Binary64 → Bool
  | .finite _ _ _ => true
  | _ => false

/-- The same value with the other sign. -/
def neg : Binary64 → Binary64
  | .finite s m e => .finite (!s) m e
  | .infinite s => .infinite (!s)
  | .nan => .nan

/-- Gives a value the sign `negative` when `negative` holds, keeps it otherwise. -/
def withSign (negative : Bool) (x : Binary64) : Binary64 :=
  if negative then x.neg else x

/-- `2^k` for an exponent that may be negative: the numerator and denominator of the
power. -/
def pow2 (k : Int) : Nat × Nat :=
  if k ≥ 0 then (Nat.pow 2 k.toNat, 1) else (1, Nat.pow 2 (-k).toNat)

/-- Whether `num / den ≥ 2^k`. -/
def atLeastPow2 (num den : Nat) (k : Int) : Bool :=
  let (p, q) := pow2 k
  num * q ≥ den * p

/-- The exponent `k` with `2^k ≤ num / den < 2^(k+1)`, for positive `num` and `den`. -/
def floorLog2 (num den : Nat) : Int :=
  let k : Int := (num.log2 : Int) - den.log2
  if atLeastPow2 num den k then k else k - 1

/-- The nearest natural to `a / b`, a half going to the even one. -/
def roundHalfEven (a b : Nat) : Nat :=
  let q := a / b
  let r := a % b
  if 2 * r > b || (2 * r = b && q % 2 = 1) then q + 1 else q

example : roundHalfEven 5 2 = 2 ∧ roundHalfEven 7 2 = 4 ∧ roundHalfEven 7 3 = 2 := by decide

/-- The double nearest to `num / den` with the sign `negative`, a tie going to the even
significand; a ratio at least halfway from the largest double to `2^1024` is an infinity.
The denominator must be positive. -/
def roundRatio (negative : Bool) (num den : Nat) : Binary64 :=
  if num = 0 then zero negative
  else
    let e := max (floorLog2 num den - 52) minExponent
    let (p, q) := pow2 e
    let m := roundHalfEven (num * q) (den * p)
    let (m, e) := if m = Nat.pow 2 53 then (hiddenBit, e + 1) else (m, e)
    if e > maxExponent then .infinite negative else .finite negative m e

example : roundRatio false 1 1 = .finite false hiddenBit (-52) := by decide
example : roundRatio false 1 3 = .finite false 6004799503160661 (-54) := by decide

/-- The double nearest to a natural. -/
def ofNat (n : Nat) : Binary64 := roundRatio false n 1

/-- The exact magnitude of a finite double, as a numerator and a denominator. -/
def ratio (m : Nat) (e : Int) : Nat × Nat :=
  let (p, q) := pow2 e
  (m * p, q)

/-- The rounded product. -/
def mul : Binary64 → Binary64 → Binary64
  | .finite s m e, .finite t n f =>
    let (a, b) := ratio (m * n) (e + f)
    roundRatio (s != t) a b
  | .nan, _ => .nan
  | _, .nan => .nan
  | .infinite s, .finite t n _ => if n = 0 then .nan else .infinite (s != t)
  | .finite s m _, .infinite t => if m = 0 then .nan else .infinite (s != t)
  | .infinite s, .infinite t => .infinite (s != t)

/-- The rounded quotient. -/
def div : Binary64 → Binary64 → Binary64
  | .finite s m e, .finite t n f =>
    if n = 0 then (if m = 0 then .nan else .infinite (s != t))
    else
      let (a, b) := ratio m e
      let (c, d) := ratio n f
      roundRatio (s != t) (a * d) (b * c)
  | .nan, _ => .nan
  | _, .nan => .nan
  | .infinite s, .finite t _ _ => .infinite (s != t)
  | .finite s _ _, .infinite t => zero (s != t)
  | .infinite _, .infinite _ => .nan

/-- The number of decimal digits of a positive natural. -/
def decimalLength (n : Nat) : Nat := (Nat.toDigits 10 n).length

/-- The double nearest to `mantissa · 10^exp10` with the sign `negative`. Values of at least
`10^309` are infinite and values below `10^-324` are zero without exact arithmetic, which keeps
huge exponents cheap; all others are rounded exactly. -/
def ofScientific (negative : Bool) (mantissa : Nat) (exp10 : Int) : Binary64 :=
  if mantissa = 0 then zero negative
  else
    let magnitude : Int := decimalLength mantissa + exp10
    if magnitude ≥ 310 then .infinite negative
    else if magnitude ≤ -324 then zero negative
    else if exp10 ≥ 0 then roundRatio negative (mantissa * Nat.pow 10 exp10.toNat) 1
    else roundRatio negative mantissa (Nat.pow 10 (-exp10).toNat)

/-- The value of decimal digits. -/
def digitsValue (ds : List Char) : Nat :=
  ds.foldl (fun n c => n * 10 + (c.toNat - '0'.toNat)) 0

/-- Reads a decimal text: an optional sign, digits with an optional point (at least one digit
in all), and an optional exponent of `e` or `E`, an optional sign and at least one digit. The
value is rounded to the nearest double. -/
def readDecimal? (cs : List Char) : Option Binary64 :=
  let (negative, body) := match cs with
    | '-' :: r => (true, r)
    | '+' :: r => (false, r)
    | r => (false, r)
  let whole := body.takeWhile Char.isDigit
  let afterWhole := body.dropWhile Char.isDigit
  let (frac, afterFrac) := match afterWhole with
    | '.' :: r => (r.takeWhile Char.isDigit, r.dropWhile Char.isDigit)
    | r => ([], r)
  let exponent : Option Int := match afterFrac with
    | [] => some 0
    | e :: r =>
      if e = 'e' || e = 'E' then
        let (expNegative, ds) := match r with
          | '-' :: d => (true, d)
          | '+' :: d => (false, d)
          | d => (false, d)
        if !ds.isEmpty && ds.all Char.isDigit then
          some (if expNegative then -(digitsValue ds : Int) else digitsValue ds)
        else none
      else none
  if whole.isEmpty && frac.isEmpty then none
  else exponent.map fun x =>
    ofScientific negative (digitsValue (whole ++ frac)) (x - frac.length)

example : readDecimal? "1.5".toList = some (.finite false (3 * Nat.pow 2 51) (-52)) := by decide
example : readDecimal? "-2".toList = some (.finite true hiddenBit (-51)) := by decide
example : readDecimal? "1e".toList = none := by decide

end Binary64

end TracePropagation
