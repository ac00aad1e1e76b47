/-!
# Shortest decimals

The decimal with the fewest digits among those that read back as a given binary floating-point number,
and of these the one nearest to it. All arithmetic is exact.
-/

namespace OffchainNames

namespace Decimal

/-- The number `digits * 10 ^ exponent`. -/
structure Scientific where
  /-- The digits as one number. -/
  digits : Nat
  /-- The power of ten. -/
  exponent : Int
  deriving DecidableEq, Repr

/-- A fraction of natural numbers. -/
structure Fraction where
  num : Nat
  den : Nat

namespace Fraction

/-- The fraction `n * b ^ e`. -/
def scaled (n b : Nat) (e : Int) : Fraction :=
  if 0 ≤ e then ⟨n * Nat.pow b e.toNat, 1⟩ else ⟨n, Nat.pow b (-e).toNat⟩

/-- Whether one fraction is less than another. -/
def lt (a b : Fraction) : Bool := a.num * b.den < b.num * a.den

/-- The fraction in units of another one, rounded down. -/
def quotient (a unit : Fraction) : Nat := a.num * unit.den / (a.den * unit.num)

/-- The distance between two fractions. -/
def distance (a b : Fraction) : Fraction :=
  ⟨(a.num * b.den - b.num * a.den) + (b.num * a.den - a.num * b.den), a.den * b.den⟩

end Fraction

/-- The numbers that are rounded to one binary floating-point number, which is among them. -/
structure Interval where
  value : Fraction
  low : Fraction
  high : Fraction
  /-- Whether the ends belong to it. -/
  closed : Bool

namespace Interval

/-- Whether a number is rounded to the floating-point number. -/
def contains (i : Interval) (x : Fraction) : Bool :=
  if i.closed then !(x.lt i.low) && !(i.high.lt x) else i.low.lt x && x.lt i.high

/-- The interval of the positive number with the given bits: 52 bits of fraction under 11 bits of
exponent. -/
def ofBits (bits : Nat) : Interval :=
  let exponent := bits / Nat.pow 2 52 % Nat.pow 2 11
  let fraction := bits % Nat.pow 2 52
  let m := if exponent = 0 then fraction else Nat.pow 2 52 + fraction
  let q : Int := (if exponent = 0 then 1 else exponent : Nat) - 1075
  let below := if fraction = 0 ∧ 1 < exponent then 1 else 2
  { value := .scaled m 2 q
    low := .scaled (4 * m - below) 2 (q - 2)
    high := .scaled (4 * m + 2) 2 (q - 2)
    closed := m % 2 = 0 }

/-- The one of the two neighbours on a decimal grid that is in the interval, and if both are, the
nearer. -/
def onGrid? (i : Interval) (exponent : Int) : Option Scientific :=
  let unit := Fraction.scaled 1 10 exponent
  let below := i.value.quotient unit
  let at_ (n : Nat) : Fraction := .scaled n 10 exponent
  match i.contains (at_ below), i.contains (at_ (below + 1)) with
  | true, true =>
    if ((at_ (below + 1)).distance i.value).lt ((at_ below).distance i.value) then
      some ⟨below + 1, exponent⟩
    else some ⟨below, exponent⟩
  | true, false => some ⟨below, exponent⟩
  | false, true => some ⟨below + 1, exponent⟩
  | false, false => none

/-- The greatest power of ten that is not above the value, sought downwards from the given one. -/
def magnitude (i : Interval) : (tries : Nat) → Int → Int
  | 0, e => e
  | tries + 1, e =>
    if i.value.lt (.scaled 1 10 e) then magnitude i tries (e - 1) else e

/-- The shortest decimal with at least the given number of digits. -/
def shortestFrom (i : Interval) (magnitude : Int) : (tries digits : Nat) → Scientific
  | 0, _ => ⟨0, 0⟩
  | tries + 1, digits =>
    match i.onGrid? (magnitude - digits + 1) with
    | some s => s
    | none => shortestFrom i magnitude tries (digits + 1)

end Interval

/-- Takes zeros at the end of the digits into the exponent. -/
def Scientific.strip : (tries : Nat) → Scientific → Scientific
  | 0, s => s
  | tries + 1, s =>
    if s.digits ≠ 0 ∧ s.digits % 10 = 0 then strip tries ⟨s.digits / 10, s.exponent + 1⟩ else s

/-- The shortest decimal of the positive number with the given bits. -/
def shortest (bits : Nat) : Scientific :=
  let i := Interval.ofBits bits
  (i.shortestFrom (i.magnitude 640 309) 17 1).strip 20

end Decimal

end OffchainNames
