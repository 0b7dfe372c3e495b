import DocPipeline.Number.Decimal
import DocPipeline.Number.Power

/-! Binary numbers of double precision: the one nearest to a decimal number, and the shortest
decimal text that leads back to it.
-/

namespace DocPipeline.Number

/-- A finite number of double precision, a mantissa times a power of two. -/
structure Double where
  negative : Bool
  mantissa : Nat
  exponent : Int
deriving DecidableEq, Repr

/-- The nearest whole number to a quotient; of two equally near ones the even one. -/
def roundQuotient (numerator denominator : Nat) : Nat :=
  let quotient := numerator / denominator
  let twice := 2 * (numerator % denominator)
  if denominator < twice || (twice = denominator && quotient % 2 = 1) then quotient + 1
  else quotient

/-- The numerator and denominator of a whole number times a power. -/
def scaled (n base : Nat) (exponent : Int) : Nat × Nat :=
  if 0 ≤ exponent then (n * base ^ exponent.toNat, 1) else (n, base ^ (-exponent).toNat)

namespace Double

/-- The smallest exponent of a double. -/
def leastExponent : Int := -1074

/-- The largest exponent of a double. -/
def greatestExponent : Int := 971

/-- The double nearest to a positive fraction; none when it is too large. -/
def ofFraction? (negative : Bool) (numerator denominator : Nat) : Option Double :=
  let estimate : Int := (numerator.log2 : Int) - (denominator.log2 : Int) - 52
  let fit (exponent : Int) : Nat :=
    if 0 ≤ exponent then roundQuotient numerator (denominator * 2 ^ exponent.toNat)
    else roundQuotient (numerator * 2 ^ (-exponent).toNat) denominator
  let exponent := max estimate leastExponent
  let exponent := if fit exponent < 2 ^ 52 then max (exponent - 1) leastExponent else exponent
  let mantissa := fit exponent
  let (mantissa, exponent) :=
    if mantissa = 2 ^ 53 then (2 ^ 52, exponent + 1) else (mantissa, exponent)
  if greatestExponent < exponent then none else some ⟨negative, mantissa, exponent⟩

/-- The double nearest to a decimal number; none when it is too large. Numbers far outside the
range are decided by their count of digits alone.
-/
def ofDecimal? (d : Decimal) : Option Double :=
  let count : Int := (Nat.toDigits 10 d.digits).length
  if d.digits = 0 || count + d.exponent < -400 then some ⟨d.negative, 0, leastExponent⟩
  else if 400 < count + d.exponent then none
  else
    let (numerator, denominator) := scaled d.digits 10 d.exponent
    ofFraction? d.negative numerator denominator

/-- The decimal numbers that lead back to a double lie between these two fractions over one
denominator: the middles between it and its neighbours.
-/
structure Reach where
  low : Nat
  value : Nat
  high : Nat
  denominator : Nat
  /-- The middles themselves lead back to it. -/
  closed : Bool

/-- How far a double reaches. Below a power of two the neighbour is half as far. -/
def reach (d : Double) : Reach :=
  let (numerator, denominator) := scaled (4 * d.mantissa) 2 d.exponent
  let unit := (scaled 1 2 d.exponent).1
  let below :=
    if d.mantissa = 2 ^ 52 && leastExponent < d.exponent then unit else 2 * unit
  ⟨numerator - below, numerator, numerator + 2 * unit, 4 * denominator, d.mantissa % 2 = 0⟩

/-- The decimal number leads back to the double. -/
def Reach.holds (r : Reach) (digits : Nat) (exponent : Int) : Bool :=
  let (numerator, denominator) := scaled digits 10 exponent
  let n := numerator * r.denominator
  let low := r.low * denominator
  let high := r.high * denominator
  if r.closed then low ≤ n && n ≤ high else low < n && n < high

/-- The decimal number of this grid that is nearest to the double, if one leads back to it. -/
def Reach.onGrid? (r : Reach) (exponent : Int) : Option (Nat × Int) :=
  let (unit, parts) := scaled 1 10 exponent
  let numerator := r.value * parts
  let denominator := r.denominator * unit
  let floor := numerator / denominator
  let nearest := roundQuotient numerator denominator
  let other := if nearest = floor then floor + 1 else floor
  if r.holds nearest exponent then some (nearest, exponent)
  else if r.holds other exponent then some (other, exponent)
  else none

/-- The number of digits before the point of a positive fraction, or less one the number of zeros
after it.
-/
def magnitude (numerator denominator : Nat) : Int :=
  if denominator ≤ numerator then (Nat.toDigits 10 (numerator / denominator)).length
  else 1 - ((Nat.toDigits 10 (denominator / numerator)).length : Int)

/-- The coarsest grid of digits on which a number leads back to the double. -/
def shortestFrom (r : Reach) (exponent : Int) : Nat → Nat × Int
  | 0 => (r.value, 0)
  | grids + 1 =>
    match r.onGrid? exponent with
    | some found => found
    | none => shortestFrom r (exponent - 1) grids

/-- The shortest digits that lead back to a double, as a whole number times a power of ten. -/
def shortest (d : Double) : Nat × Int :=
  if d.mantissa = 0 then (0, 0)
  else
    let r := d.reach
    shortestFrom r (magnitude r.value r.denominator) 20

/-- The digits with their point in place, never with an exponent. -/
def positional (digits : Nat) (exponent : Int) : List Char :=
  let cs := Nat.toDigits 10 digits
  if 0 ≤ exponent then
    if digits = 0 then ['0'] else cs ++ List.replicate exponent.toNat '0'
  else
    let places := (-exponent).toNat
    let padded := cs.leftpad (places + 1) '0'
    padded.take (padded.length - places) ++ '.' :: padded.drop (padded.length - places)

/-- The shortest text of a double; a whole number gets one zero behind its point. -/
def text (d : Double) : String :=
  let (digits, exponent) := d.shortest
  let body := positional digits exponent
  String.ofList ((if d.negative then ['-'] else [])
    ++ (if body.contains '.' then body else body ++ ['.', '0']))

end Double
end DocPipeline.Number
