import TracePropagation.Binary64.Basic
/-!
# The shortest decimal of a double

A double is written with the fewest significant digits that read back as the same double, and
of two such decimals the nearer one (a tie to the even last digit). The values that read back as
a positive double `m · 2^e` are those nearer to it than to its neighbours: the interval from the
midpoint with the double below to the midpoint with the double above, both ends included when
`m` is even, as rounding sends ties there. The double below is half as far away when `m` is the
least significand of a binade (`2^52`) above the subnormals.

`shortest` tries the decimal grids `10^p` from the coarsest one that can hold the value down,
testing at each the two grid points around the value; 17 significant digits always suffice, so
the search ends after 18 grids.

`decimalText` spells digits and a power of ten in the usual way of shortest-float printers:
positional from `1e-5` up to below `1e16`, with `.0` after an integer, and `d.ddde±x`
otherwise (`1e-7`, `1.5e300`); a zero is `0.0`.
-/

namespace TracePropagation.Binary64

/-- `10^p` for an exponent that may be negative: the numerator and denominator of the
power. -/
def pow10 (p : Int) : Nat × Nat :=
  if p ≥ 0 then (Nat.pow 10 p.toNat, 1) else (1, Nat.pow 10 (-p).toNat)

/-- The exponent `k` with `10^k ≤ a / b < 10^(k+1)`, for positive `a` and `b`. -/
def floorLog10 (a b : Nat) : Int :=
  let k : Int := (decimalLength a : Int) - decimalLength b
  let (p, q) := pow10 k
  if a * q ≥ b * p then k else k - 1

/-- The rounding interval of a positive double `m · 2^e`, in units of `2^(e-2)`: its lower end,
the value itself and its upper end. -/
def interval (m : Nat) (e : Int) : Nat × Nat × Nat :=
  let lower := if m = hiddenBit && e > minExponent then 4 * m - 1 else 4 * m - 2
  (lower, 4 * m, 4 * m + 2)

/-- Whether `d · 10^p` reads back as the positive double `m · 2^e`. -/
def readsBack (m : Nat) (e : Int) (d : Nat) (p : Int) : Bool :=
  let (lower, _, upper) := interval m e
  let (a, b) := pow2 (e - 2)
  let (pn, pd) := pow10 p
  -- `d · 10^p` compared with `x · 2^(e-2)` as `d · pn · b` against `x · a · pd`
  let c := d * pn * b
  let lo := lower * a * pd
  let hi := upper * a * pd
  if m % 2 = 0 then lo ≤ c && c ≤ hi else lo < c && c < hi

/-- The digits of the decimal on the grid `10^p` that reads back as `m · 2^e` and is nearest
to it, if there is one: the grid points below and above the value are the only candidates. -/
def onGrid (m : Nat) (e : Int) (p : Int) : Option Nat :=
  let (a, b) := pow2 (e - 2)
  let (pn, pd) := pow10 p
  -- the value over the grid step is `4m · a · pd / (b · pn)`
  let num := 4 * m * a * pd
  let den := b * pn
  let below := num / den
  if num % den = 0 then some below
  else
    let lowOk := below > 0 && readsBack m e below p
    let highOk := readsBack m e (below + 1) p
    if lowOk && highOk then
      -- nearer of the two; `2 · value` against the midpoint `(2 · below + 1) · step`
      if 2 * num < (2 * below + 1) * den then some below
      else if 2 * num > (2 * below + 1) * den then some (below + 1)
      else if below % 2 = 0 then some below else some (below + 1)
    else if lowOk then some below
    else if highOk then some (below + 1)
    else none

/-- Tries the grids `10^p`, `10^(p-1)`, … for `tries` grids. -/
def searchGrids (m : Nat) (e : Int) : Nat → Int → Option (Nat × Int)
  | 0, _ => none
  | tries + 1, p =>
    match onGrid m e p with
    | some d => some (d, p)
    | none => searchGrids m e tries (p - 1)

/-- Drops the trailing zeros of the digits, raising the power of ten to match. -/
def dropZeros : Nat → Nat → Int → Nat × Int
  | 0, d, p => (d, p)
  | fuel + 1, d, p => if d % 10 = 0 && d > 0 then dropZeros fuel (d / 10) (p + 1) else (d, p)

/-- The shortest decimal `d · 10^p` that reads back as the positive double `m · 2^e`, as the
digits `d` (no trailing zero) and the power `p`. -/
def shortest (m : Nat) (e : Int) : Nat × Int :=
  let (a, b) := ratio m e
  let top := floorLog10 a b + 1
  match searchGrids m e 18 top with
  | some (d, p) => dropZeros (decimalLength d) d p
  | none => (m, 0)

example : shortest hiddenBit (-52) = (1, 0) := by decide
example : shortest 5404319552844595 (-54) = (3, -1) := by decide

/-- The text of digits `d` (no trailing zero) times `10^p`. -/
def decimalText (d : Nat) (p : Int) : String :=
  let ds := Nat.toDigits 10 d
  let len : Int := ds.length
  let kk := len + p
  if 0 ≤ p && kk ≤ 16 then
    String.ofList (ds ++ List.replicate p.toNat '0' ++ ['.', '0'])
  else if 0 < kk && kk ≤ 16 then
    String.ofList (ds.take kk.toNat ++ ['.'] ++ ds.drop kk.toNat)
  else if -5 < kk && kk ≤ 0 then
    String.ofList (['0', '.'] ++ List.replicate (-kk).toNat '0' ++ ds)
  else
    let mantissa := match ds with
      | [c] => [c]
      | c :: rest => c :: '.' :: rest
      | [] => []
    String.ofList mantissa ++ "e" ++ toString (kk - 1)

example : decimalText 1 2 = "100.0" ∧ decimalText 15 (-1) = "1.5" ∧ decimalText 1 (-7) = "1e-7" ∧
    decimalText 1234 (-6) = "0.001234" ∧ decimalText 61 29 = "6.1e30" := by decide

/-- The shortest text of a finite double: its sign, then `0.0` or the shortest decimal. -/
def finiteText (negative : Bool) (m : Nat) (e : Int) : String :=
  (if negative then "-" else "") ++
    (if m = 0 then "0.0" else let (d, p) := shortest m e; decimalText d p)

end TracePropagation.Binary64
