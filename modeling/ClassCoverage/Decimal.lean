/-! Decimal texts of binary floating point numbers. With a fixed number of places a number is taken
exactly, and of two texts that are equally near the one with an even last digit is written.
Otherwise the shortest decimal is written that reads back as the number: a finite number stands for
the interval of reals that round to it, and the first decimal grid with a point in it is taken. -/
namespace ClassCoverage.Decimal

/-- The quotient rounded to the nearest whole number, a tie to the even one. -/
def roundDiv (numerator denominator : Nat) : Nat :=
  let quotient := numerator / denominator
  let twice := 2 * (numerator % denominator)
  if twice > denominator || (twice == denominator && quotient % 2 == 1) then quotient + 1
    else quotient

/-- The number of the digits `text` padded with zeros on the left to `width`. -/
def padded (width : Nat) (number : Nat) : String :=
  let digits := toString number
  String.ofList (List.replicate (width - digits.length) '0') ++ digits

def ofScaled (places : Nat) (scaled : Nat) : String :=
  if places = 0 then toString scaled
  else s!"{scaled / 10 ^ places}." ++ padded places (scaled % 10 ^ places)

/-- Writes `m * 2 ^ (exponent - 1075)` for a finite number with significand `m`. -/
def fixed (places : Nat) (number : Float) : String :=
  let bits := number.toBits.toNat
  let sign := if bits / 2 ^ (63 : Nat) = 1 then "-" else ""
  let exponent := bits / 2 ^ (52 : Nat) % 2 ^ (11 : Nat)
  let fraction := bits % 2 ^ (52 : Nat)
  if exponent = 2047 then if fraction = 0 then sign ++ "inf" else "NaN"
  else
    let significand := if exponent = 0 then fraction else fraction + 2 ^ (52 : Nat)
    let power := max exponent 1
    sign ++ ofScaled places
      (if 1075 ≤ power then significand * 2 ^ (power - 1075) * 10 ^ places
       else roundDiv (significand * 10 ^ places) (2 ^ (1075 - power)))

/-- The digits `digits` times the power of ten `exponent`. -/
structure Scientific where
  digits : Nat
  exponent : Int
  deriving DecidableEq, Repr

/-- A finite positive number `significand * 2 ^ power`, with its interval in quarters of that power:
the lower end is nearer where the significand is the smallest of its power. -/
structure Binary where
  significand : Nat
  power : Int
  narrow : Bool

def Binary.ofFloat (number : Float) : Binary :=
  let bits := number.toBits.toNat
  let exponent : Nat := bits / 2 ^ (52 : Nat) % 2 ^ (11 : Nat)
  let fraction : Nat := bits % 2 ^ (52 : Nat)
  if exponent = 0 then ⟨fraction, -1074, false⟩
  else ⟨fraction + 2 ^ (52 : Nat), Int.ofNat exponent - 1075,
    fraction == 0 && decide (1 < exponent)⟩

/-- The fraction `quarters * 2 ^ (power - 2) / 10 ^ exponent`. -/
def scale (quarters : Nat) (power exponent : Int) : Nat × Nat :=
  let two := power - 2
  (quarters * 2 ^ two.toNat * 10 ^ (-exponent).toNat, 2 ^ (-two).toNat * 10 ^ exponent.toNat)

/-- The better of the two points of a grid around the number, if one reads back as it. -/
def gridPoint? (number : Binary) (exponent : Int) : Option Nat :=
  let quarters := 4 * number.significand
  let (value, unit) := scale quarters number.power exponent
  let (low, _) := scale (quarters - (if number.narrow then 1 else 2)) number.power exponent
  let (high, _) := scale (quarters + 2) number.power exponent
  let even := number.significand % 2 = 0
  let readsBack (point : Nat) : Bool :=
    if even then low ≤ point * unit && point * unit ≤ high
    else low < point * unit && point * unit < high
  let below := value / unit
  let above := below + 1
  let nearer := if 2 * (value % unit) ≤ unit then [below, above] else [above, below]
  nearer.find? readsBack

/-- The number of decimal digits before the point. -/
def magnitude (number : Binary) : Int :=
  let (value, unit) := scale (4 * number.significand) number.power 0
  if unit ≤ value then Int.ofNat (toString (value / unit)).length
  else
    let zeros := (List.range 400).find? (fun count => unit ≤ value * 10 ^ (count + 1))
    Int.neg (Int.ofNat (zeros.getD 400))

def dropZeros : (room : Nat) → Scientific → Scientific
  | 0, number => number
  | room + 1, number =>
    if number.digits ≠ 0 ∧ number.digits % 10 = 0 then
      dropZeros room ⟨number.digits / 10, number.exponent + 1⟩
    else number

def shortest (number : Float) : Scientific :=
  let binary := Binary.ofFloat number
  if binary.significand = 0 then ⟨0, 0⟩
  else
    let whole := magnitude binary
    let grids := (List.range 17).filterMap fun count =>
      let exponent := whole - Int.ofNat (count + 1)
      (gridPoint? binary exponent).map fun digits => Scientific.mk digits exponent
    dropZeros 20 (grids.head?.getD ⟨0, 0⟩)

def isNegative (number : Float) : Bool := number.toBits.toNat / 2 ^ (63 : Nat) == 1

/-- The digits with the point put in its place, and at least one digit on either side of it. -/
def positional (number : Scientific) : String :=
  let digits := toString number.digits
  let point := Int.ofNat digits.length + number.exponent
  if 0 ≤ number.exponent then digits ++
    String.ofList (List.replicate number.exponent.toNat '0') ++ ".0"
  else if 0 < point then
    String.ofList (digits.toList.take point.toNat) ++ "." ++
      String.ofList (digits.toList.drop point.toNat)
  else "0." ++ String.ofList (List.replicate (-point).toNat '0') ++ digits

/-- One digit before the point, and the power of ten behind it. -/
def exponential (number : Scientific) : String :=
  let digits := (toString number.digits).toList
  let power := Int.ofNat digits.length + number.exponent - 1
  let front := if digits.length = 1 then digits else digits.take 1 ++ '.' :: digits.drop 1
  String.ofList front ++ "e" ++ toString power

/-- The magnitudes, in digits before the point, that are written positionally. -/
structure Limits where
  least : Int
  most : Int

/-- Without limits every number is written positionally. -/
def write (limits : Option Limits) (number : Float) : String :=
  let sign := if isNegative number then "-" else ""
  if number.isNaN then "NaN"
  else if number.isInf then sign ++ "inf"
  else
    let decimal := shortest number
    let magnitude := Int.ofNat (toString decimal.digits).length + decimal.exponent
    let within := match limits with
      | some limits => decide (limits.least ≤ magnitude ∧ magnitude ≤ limits.most)
      | none => true
    sign ++ if decimal.digits == 0 || within then positional decimal else exponential decimal

end ClassCoverage.Decimal
