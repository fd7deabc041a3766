import LibraryRegistry.Decimal.Binary64

/-!
# Shortest decimals

The fewest decimal digits that read back as a given number, and of the decimals with so many digits
the one nearest to it. `shortest` looks on the grids of one, two, … seventeen digits, coarsest first,
whether one of the two grid points next to the number lies in the interval of reals that round to it.

`Format` says how the digits are laid out.
-/

namespace LibraryRegistry.Decimal

/-- A point `digits * 10 ^ exponent` of a decimal grid. -/
structure GridPoint where
  digits : Nat
  exponent : Int
  deriving DecidableEq, Repr

/-- A fraction `n / d` times a power of ten, as numerator and denominator. -/
def scaleTen (n d : Nat) (exponent : Int) : Nat × Nat :=
  if 0 ≤ exponent then (n * 10 ^ exponent.toNat, d) else (n, d * 10 ^ (-exponent).toNat)

/-- The number of decimal digits. -/
def digitCount (n : Nat) : Nat := (Nat.toDigits 10 n).length

/-- The exponent of the first decimal digit of `n / d`. -/
def leadingExponent (n d : Nat) : Int :=
  let guess : Int := (digitCount n : Int) - digitCount d
  let (n', d') := scaleTen n d (-guess)
  if d' ≤ n' then guess else guess - 1

/-- The reals that round to a number: their ends as numerators over one denominator, and whether the
ends belong to them. -/
structure Interval where
  low : Nat
  high : Nat
  denominator : Nat
  closed : Bool

/-- The reals that round to a number above zero: half way to the numbers next to it. -/
def Interval.around (b : Binary64) : Interval :=
  let quarters := 4 * b.mantissa
  let below := if b.mantissa = 2 ^ 52 && Binary64.minExponent < b.exponent then 1 else 2
  let (unit, d) := Binary64.scale 1 4 b.exponent
  ⟨(quarters - below) * unit, (quarters + 2) * unit, d, b.mantissa % 2 = 0⟩

/-- Whether `digits * 10 ^ exponent` lies in the interval. -/
def Interval.holds (i : Interval) (x : GridPoint) : Bool :=
  let (n, d) := scaleTen x.digits 1 x.exponent
  if i.closed then i.low * d ≤ n * i.denominator && n * i.denominator ≤ i.high * d
  else i.low * d < n * i.denominator && n * i.denominator < i.high * d

/-- The grid point of the interval next to `n / d` on the grid of multiples of `10 ^ exponent`: of
two the nearer one, of two as near the even one. -/
def onGrid? (i : Interval) (n d : Nat) (exponent : Int) : Option GridPoint :=
  let (n', d') := scaleTen n d (-exponent)
  let down : GridPoint := ⟨n' / d', exponent⟩
  let up : GridPoint := ⟨n' / d' + 1, exponent⟩
  match i.holds down, i.holds up with
  | true, true => some ⟨Binary64.divideToEven n' d', exponent⟩
  | true, false => some down
  | false, true => some up
  | false, false => none

/-- The shortest decimal of a number. -/
def shortest (b : Binary64) : GridPoint :=
  if b.mantissa = 0 then ⟨0, 0⟩
  else
    let (n, d) := b.toFraction
    let lead := leadingExponent n d
    let i := Interval.around b
    ((List.range 17).findSome? fun (k : Nat) => onGrid? i n d (lead - k)).getD ⟨n / d, 0⟩

/-- How digits are laid out: with a point among them as long as the exponent of the first digit is
from `lowest` to `highest`, else behind the first digit, with an exponent that has a sign. -/
structure Format where
  lowest : Int
  highest : Int

/-- Lays out digits whose first one has the exponent `lead`. -/
def Format.layOut (f : Format) (digits : List Char) (lead : Int) : List Char :=
  if f.lowest ≤ lead ∧ lead ≤ f.highest then
    if lead < 0 then '0' :: '.' :: (List.replicate (-lead - 1).toNat '0' ++ digits)
    else
      let whole := lead.toNat + 1
      if digits.length ≤ whole then
        digits ++ List.replicate (whole - digits.length) '0' ++ ['.', '0']
      else digits.take whole ++ '.' :: digits.drop whole
  else
    let mantissa :=
      match digits with
      | first :: second :: rest => first :: '.' :: second :: rest
      | _ => digits
    mantissa ++ 'e' :: (if lead < 0 then '-' else '+') :: Nat.toDigits 10 lead.natAbs

/-- Drops the zeros at the end. -/
def dropTrailingZeros (digits : List Char) : List Char :=
  (digits.reverse.dropWhile (· == '0')).reverse

/-- Writes a number. -/
def Format.write (f : Format) (negative : Bool) (b : Binary64) : String :=
  let sign := if negative then ['-'] else []
  if b.mantissa = 0 then String.ofList (sign ++ ['0', '.', '0'])
  else
    let x := shortest b
    let digits := Nat.toDigits 10 x.digits
    let lead := x.exponent + digits.length - 1
    String.ofList (sign ++ f.layOut (dropTrailingZeros digits) lead)

end LibraryRegistry.Decimal
