/-!
# Double-precision numbers

Floating-point settings as exact values: a significand times a power of two.  A
decimal is read as the nearest number of the format, and a number is written
with the fewest digits that read back to it.
-/

namespace TokenMacros

inductive Binary64 where
  /-- `significand * 2 ^ exponent`, with a sign. -/
  | finite (negative : Bool) (significand : Nat) (exponent : Int)
  | infinity (negative : Bool)
  | nan
  deriving Repr, DecidableEq

namespace Binary64

/-- Quotient rounded to the nearest whole number, halves to the even one. -/
def roundedQuotient (numerator denominator : Nat) : Nat :=
  let quotient := numerator / denominator
  let doubled := 2 * (numerator % denominator)
  if denominator < doubled || (doubled == denominator && quotient % 2 == 1) then quotient + 1
  else quotient

/-- The exponent of the highest power of two that does not exceed a positive
fraction. -/
def binaryMagnitude (numerator denominator : Nat) : Int :=
  let estimate : Int := numerator.log2 - denominator.log2
  let reaches :=
    if 0 ≤ estimate then denominator * Nat.pow 2 estimate.toNat ≤ numerator
    else denominator ≤ numerator * Nat.pow 2 (-estimate).toNat
  if reaches then estimate else estimate - 1

/-- The number nearest to a fraction. -/
def ofFraction (negative : Bool) (numerator denominator : Nat) : Binary64 :=
  if numerator = 0 then .finite negative 0 0
  else
    let exponent := max (binaryMagnitude numerator denominator - 52) (-1074)
    let significand :=
      if 0 ≤ exponent then roundedQuotient numerator (denominator * Nat.pow 2 exponent.toNat)
      else roundedQuotient (numerator * Nat.pow 2 (-exponent).toNat) denominator
    let (significand, exponent) : Nat × Int :=
      if significand = Nat.pow 2 53 then (Nat.pow 2 52, exponent + 1) else (significand, exponent)
    if significand = 0 then .finite negative 0 0
    else if 971 < exponent then .infinity negative
    else .finite negative significand exponent

def digitCount (n : Nat) : Nat := (Nat.toDigits 10 n).length

/-- The number nearest to `digits * 10 ^ exponent`. -/
def ofDecimal (negative : Bool) (digits : Nat) (exponent : Int) : Binary64 :=
  let magnitude : Int := digitCount digits + exponent
  if digits = 0 || magnitude < -330 then .finite negative 0 0
  else if 310 < magnitude then .infinity negative
  else if 0 ≤ exponent then ofFraction negative (digits * Nat.pow 10 exponent.toNat) 1
  else ofFraction negative digits (Nat.pow 10 (-exponent).toNat)

def isZero : Binary64 → Bool
  | .finite _ significand _ => significand == 0
  | _ => false

/-- Both are the same number; zeros of either sign are. -/
def equals : Binary64 → Binary64 → Bool
  | .finite negative significand exponent, .finite negative' significand' exponent' =>
    (significand == 0 && significand' == 0) ||
      (negative == negative' &&
        significand * Nat.pow 2 (exponent - exponent').toNat ==
          significand' * Nat.pow 2 (exponent' - exponent).toNat)
  | .infinity negative, .infinity negative' => negative == negative'
  | _, _ => false

/-- The whole part of a finite number, sign kept. -/
def truncate (negative : Bool) (significand : Nat) (exponent : Int) : Int :=
  let whole : Nat :=
    if 0 ≤ exponent then significand * Nat.pow 2 exponent.toNat
    else significand / Nat.pow 2 (-exponent).toNat
  if negative then -whole else whole

/-- A positive number as a fraction. -/
def fraction (significand : Nat) (exponent : Int) : Nat × Nat :=
  if 0 ≤ exponent then (significand * Nat.pow 2 exponent.toNat, 1)
  else (significand, Nat.pow 2 (-exponent).toNat)

/-- The place of the decimal point: a positive fraction lies from `10 ^ (place -
1)` up to, but not at, `10 ^ place`. -/
def decimalPlace (numerator denominator : Nat) : Int :=
  let estimate : Int := digitCount numerator - digitCount denominator
  let reaches :=
    if 0 ≤ estimate then denominator * Nat.pow 10 estimate.toNat ≤ numerator
    else denominator ≤ numerator * Nat.pow 10 (-estimate).toNat
  if reaches then estimate + 1 else estimate

/-- The value on the decimal grid of the given exponent that is nearest to a
positive number, of those beside it that read back as the number. -/
def onGrid? (significand : Nat) (exponent grid : Int) : Option Nat :=
  let (numerator, denominator) := fraction significand exponent
  let (numerator, denominator) : Nat × Nat :=
    if 0 ≤ grid then (numerator, denominator * Nat.pow 10 grid.toNat)
    else (numerator * Nat.pow 10 (-grid).toNat, denominator)
  let below := numerator / denominator
  let readsBack (n : Nat) : Bool :=
    ofDecimal false n grid == .finite false significand exponent
  let nearest := roundedQuotient numerator denominator
  let other := if nearest = below then below + 1 else below
  if readsBack nearest then some nearest
  else if readsBack other then some other
  else none

/-- The shortest digits of a positive number, and the place of the decimal
point. -/
def shortest (significand : Nat) (exponent : Int) : List Char × Int :=
  let (numerator, denominator) := fraction significand exponent
  let place := decimalPlace numerator denominator
  let found := (List.range 17).findSome? fun (count : Nat) =>
    let grid : Int := place - (count + 1 : Nat)
    (onGrid? significand exponent grid).map fun n =>
      let digits := Nat.toDigits 10 n
      (digits, (digits.length : Int) + grid)
  let (digits, place) := found.getD (['0'], 1)
  -- a value rounded up to a power of ten ends in zeros
  ((digits.reverse.dropWhile (· == '0')).reverse, place)

/-- Digits with a decimal point at the given place: positional notation from
`0.0001` up to sixteen digits in front of the point, else an exponent of at
least two digits. -/
def layOut (digits : List Char) (place : Int) : List Char :=
  let zeros (n : Int) : List Char := List.replicate n.toNat '0'
  if -4 < place && place ≤ 16 then
    if place ≤ 0 then ['0', '.'] ++ zeros (-place) ++ digits
    else if (digits.length : Int) ≤ place then
      digits ++ zeros (place - digits.length) ++ ['.', '0']
    else digits.take place.toNat ++ '.' :: digits.drop place.toNat
  else
    let exponent := place - 1
    let size := Nat.toDigits 10 exponent.natAbs
    let mantissa := match digits with
      | [] => []
      | [d] => [d]
      | d :: rest => d :: '.' :: rest
    mantissa ++ ['e', if exponent < 0 then '-' else '+'] ++
      (if size.length < 2 then '0' :: size else size)

def text : Binary64 → String
  | .nan => "nan"
  | .infinity negative => if negative then "-inf" else "inf"
  | .finite negative significand exponent =>
    let magnitude :=
      if significand = 0 then ['0', '.', '0']
      else
        let (digits, place) := shortest significand exponent
        layOut digits place
    String.ofList (if negative then '-' :: magnitude else magnitude)

end Binary64

end TokenMacros
