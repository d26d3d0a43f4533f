/-
Module: Relational.Decimal.Layout
Purpose: Written form of floating-point words.
Main exports: Decimal.Layout, Precision.text
-/
import Relational.Decimal.Shortest

namespace Relational

/-!
The digits of a number say nothing about how it is written.  The choices are collected in one
record, so that the writer below holds no number of its own.
-/

/-- Where positional notation begins and ends, and how the special words are spelled. -/
structure Decimal.Layout where
  /-- Lowest exponent of the leading digit that is still written positionally. -/
  lowest : Int
  /-- Highest exponent of the leading digit that is still written positionally. -/
  highest : Int
  /-- What divides the digits from the exponent in scientific notation. -/
  mark : String
  notANumber : String
  infinity : String
deriving Repr

/-- Positional from one ten-thousandth to just below ten to the sixteenth, otherwise scientific
without a sign on positive exponents. -/
def Decimal.Layout.standard : Decimal.Layout where
  lowest := -4
  highest := 15
  mark := "e"
  notANumber := "NaN"
  infinity := "inf"

namespace Decimal

/-- Consecutive decimal digits as text. -/
def digitText (digits : List Nat) : String :=
  String.ofList (digits.map Nat.digitChar)

/-- All digits in place, with at least one on either side of the point. -/
def positional (number : Decimal) : String :=
  match number.exponent with
  | .negSucc below =>
    "0." ++ digitText (List.replicate below 0 ++ number.digits)
  | .ofNat above =>
    let whole := number.digits.take (above + 1)
    let part := number.digits.drop (above + 1)
    digitText (whole ++ List.replicate (above + 1 - whole.length) 0) ++ "." ++
      (if part.isEmpty then "0" else digitText part)

/-- One digit, a point only if more digits follow, and the exponent. -/
def scientific (mark : String) (number : Decimal) : String :=
  let head := digitText (number.digits.take 1)
  let part := number.digits.drop 1
  head ++ (if part.isEmpty then "" else "." ++ digitText part) ++ mark ++ toString number.exponent

/-- The layout chooses the notation by the exponent of the leading digit. -/
def Layout.write (layout : Layout) (number : Decimal) : String :=
  if layout.lowest ≤ number.exponent ∧ number.exponent ≤ layout.highest then
    number.positional
  else
    number.scientific layout.mark

end Decimal

/-- The text of a floating-point word.  A word that is not a number is written without a sign. -/
def Precision.text (precision : Precision) (bits : Nat) : String :=
  let layout := Decimal.Layout.standard
  let sign := if precision.isNegative bits then "-" else ""
  if precision.isNaN bits then layout.notANumber
  else if precision.isInfinite bits then sign ++ layout.infinity
  else if precision.isZero bits then sign ++ "0.0"
  else sign ++ layout.write (precision.significand bits).shortest

end Relational
