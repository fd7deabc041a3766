import LibraryRegistry.Powers

/-!
# Binary floating-point numbers of 64 bits

Finite numbers `mantissa * 2 ^ exponent` with a mantissa below `2 ^ 53`, without their sign. `nearest`
rounds a fraction to the nearest such number, a tie to the even mantissa; every operation here is an
exact one followed by `nearest`.
-/

namespace LibraryRegistry.Decimal

/-- The absolute value of a finite number. -/
structure Binary64 where
  mantissa : Nat
  exponent : Int
  deriving DecidableEq, Repr

namespace Binary64

/-- The lowest exponent. -/
def minExponent : Int := -1074

/-- The highest exponent. -/
def maxExponent : Int := 971

/-- Zero. -/
def zero : Binary64 := ⟨0, minExponent⟩

/-- A fraction `n / d` times a power of two, as numerator and denominator. -/
def scale (n d : Nat) (exponent : Int) : Nat × Nat :=
  if 0 ≤ exponent then (n * 2 ^ exponent.toNat, d) else (n, d * 2 ^ (-exponent).toNat)

/-- The whole number nearest to `n / d`; of two the even one. -/
def divideToEven (n d : Nat) : Nat :=
  let q := n / d
  let twice := 2 * (n % d)
  if twice < d then q else if d < twice then q + 1 else if q % 2 = 0 then q else q + 1

/-- The exponent with which `n / d` has a mantissa of 53 bits, if that is not too low. -/
def exponentFor (n d : Nat) : Int :=
  let guess : Int := (n.log2 : Int) - d.log2 - 52
  let (n', d') := scale n d (-guess)
  max minExponent (if 2 ^ 52 * d' ≤ n' then guess else guess - 1)

/-- The number nearest to `n / d`, for `d` above zero; `none` if it is too large. -/
def nearest (n d : Nat) : Option Binary64 :=
  if n = 0 then some zero
  else
    let e := exponentFor n d
    let (n', d') := scale n d (-e)
    let m := divideToEven n' d'
    let (m, e) := if m = 2 ^ 53 then (2 ^ 52, e + 1) else (m, e)
    if maxExponent < e then none else some ⟨m, e⟩

/-- The number as a fraction. -/
def toFraction (b : Binary64) : Nat × Nat := scale b.mantissa 1 b.exponent

/-- The rounded product. -/
def mul (a b : Binary64) : Option Binary64 :=
  let (n, d) := scale (a.mantissa * b.mantissa) 1 (a.exponent + b.exponent)
  nearest n d

/-- The rounded quotient, for `b` above zero. -/
def div (a b : Binary64) : Option Binary64 :=
  let (n, d) := scale a.mantissa b.mantissa (a.exponent - b.exponent)
  nearest n d

/-- The number nearest to a power of ten. -/
def powerOfTen (k : Nat) : Option Binary64 := nearest (10 ^ k) 1

/-- `b * 10 ^ exponent`, by one product or quotient with a power of ten up to `10 ^ 308`; larger
quotients are taken in steps. `none` if the result is too large. -/
def timesPowerOfTen (b : Binary64) (exponent : Int) : Option Binary64 :=
  if exponent.natAbs ≤ 308 then do
    let power ← powerOfTen exponent.natAbs
    if 0 ≤ exponent then b.mul power else b.div power
  else if b.mantissa = 0 then some zero
  else if _h : 0 ≤ exponent then none
  else do
    let power ← powerOfTen 308
    let b ← b.div power
    timesPowerOfTen b (exponent + 308)
termination_by exponent.natAbs
decreasing_by omega

/-- Reads `significand * 10 ^ exponent`: the significand is rounded first, then the product. -/
def ofDecimal (significand : Nat) (exponent : Int) : Option Binary64 := do
  let b ← nearest significand 1
  timesPowerOfTen b exponent

end Binary64

end LibraryRegistry.Decimal
