/-
Module: Relational.Decimal.Shortest
Purpose: Binary floating-point words and the fewest decimal digits that read back as the same word.
Main exports: Precision, Precision.isNaN, Precision.sameNumber, Significand, Significand.shortest
-/

namespace Relational

/-!
A floating-point word is kept as its bits, a natural number.  Nothing here rounds: a finite word
denotes `m * 2 ^ q`, every real that rounds to it lies in an interval around that value, and the
digits are found by testing points of coarser and coarser decimal grids against that interval in
exact arithmetic.
-/

/-- The two binary interchange formats that atoms may carry. -/
inductive Precision where
  | single
  | double
deriving DecidableEq, Repr

namespace Precision

/-- Number of bits of the stored fraction. -/
def fractionBits : Precision → Nat
  | .single => 23
  | .double => 52

/-- Number of bits of the stored exponent. -/
def exponentBits : Precision → Nat
  | .single => 8
  | .double => 11

/-- The exponent field of infinities and of words that are not a number. -/
def topExponent (precision : Precision) : Nat :=
  Nat.pow 2 precision.exponentBits - 1

/-- The stored fraction of a word. -/
def fraction (precision : Precision) (bits : Nat) : Nat :=
  bits % Nat.pow 2 precision.fractionBits

/-- The stored exponent of a word. -/
def exponentField (precision : Precision) (bits : Nat) : Nat :=
  bits / Nat.pow 2 precision.fractionBits % Nat.pow 2 precision.exponentBits

/-- The sign bit of a word. -/
def isNegative (precision : Precision) (bits : Nat) : Bool :=
  bits / Nat.pow 2 (precision.fractionBits + precision.exponentBits) % 2 == 1

/-- A word of the top exponent with a fraction denotes no number. -/
def isNaN (precision : Precision) (bits : Nat) : Bool :=
  precision.exponentField bits == precision.topExponent && precision.fraction bits != 0

/-- A word of the top exponent without a fraction denotes an infinity. -/
def isInfinite (precision : Precision) (bits : Nat) : Bool :=
  precision.exponentField bits == precision.topExponent && precision.fraction bits == 0

/-- Zero has an empty exponent and an empty fraction, with either sign. -/
def isZero (precision : Precision) (bits : Nat) : Bool :=
  precision.exponentField bits == 0 && precision.fraction bits == 0

/-- Numeric equality of two words: a word that is not a number equals nothing, not even itself,
and the two zeros are equal. -/
def sameNumber (precision : Precision) (left right : Nat) : Bool :=
  !precision.isNaN left && !precision.isNaN right &&
    (left == right || (precision.isZero left && precision.isZero right))

theorem sameNumber_symm (precision : Precision) (left right : Nat) :
    precision.sameNumber left right = precision.sameNumber right left := by
  simp only [sameNumber, Bool.beq_comm (a := left)]
  cases precision.isNaN left <;> cases precision.isNaN right <;>
    cases precision.isZero left <;> cases precision.isZero right <;> rfl

theorem sameNumber_trans (precision : Precision) {left middle right : Nat}
    (first : precision.sameNumber left middle = true)
    (second : precision.sameNumber middle right = true) :
    precision.sameNumber left right = true := by
  simp only [sameNumber, Bool.and_eq_true, Bool.or_eq_true, Bool.not_eq_true', beq_iff_eq]
    at first second ⊢
  obtain ⟨⟨leftNumber, _⟩, leftMiddle⟩ := first
  obtain ⟨⟨_, rightNumber⟩, middleRight⟩ := second
  refine ⟨⟨leftNumber, rightNumber⟩, ?_⟩
  rcases leftMiddle with rfl | leftZero
  · exact middleRight
  · rcases middleRight with rfl | rightZero
    · exact Or.inr leftZero
    · exact Or.inr ⟨leftZero.1, rightZero.2⟩

end Precision

/-- A positive finite number `m * 2 ^ q`.  `narrowBelow` says that the next smaller number of the
format is only half as far away as the next larger one. -/
structure Significand where
  m : Nat
  q : Int
  narrowBelow : Bool
deriving DecidableEq, Repr

/-- The magnitude of a finite nonzero word. -/
def Precision.significand (precision : Precision) (bits : Nat) : Significand :=
  let fraction := precision.fraction bits
  let field := precision.exponentField bits
  let bias : Int := (Nat.pow 2 (precision.exponentBits - 1) : Nat) - 1
  let lowest : Int := 1 - bias - precision.fractionBits
  if field = 0 then
    { m := fraction, q := lowest, narrowBelow := false }
  else
    { m := Nat.pow 2 precision.fractionBits + fraction
      q := lowest + (field - 1)
      narrowBelow := fraction == 0 && field != 1 }

/-- A decimal number written `d₁.d₂d₃… * 10 ^ exponent`; the first digit is not zero. -/
structure Decimal where
  digits : List Nat
  exponent : Int
deriving DecidableEq, Repr

namespace Significand

/-- The value and the two ends of the interval that rounds to it, over one denominator. -/
structure Interval where
  low : Nat
  value : Nat
  high : Nat
  denominator : Nat

/-- Quarter units make both ends whole: the upper neighbour is four quarters away and the lower
one four, or two where the format is narrower below. -/
def interval (number : Significand) : Interval :=
  let scale := Nat.pow 2 (number.q - 2).toNat
  { low := (4 * number.m - if number.narrowBelow then 1 else 2) * scale
    value := 4 * number.m * scale
    high := (4 * number.m + 2) * scale
    denominator := Nat.pow 2 (2 - number.q).toNat }

/-- Number of decimal digits of a natural number; zero has none.  As a thousand is less than the
tenth power of two, three digits for every ten bits can be cut off before the rest is counted. -/
def digitCount (n : Nat) : Nat :=
  if n = 0 then 0
  else
    let certain := n.log2 * 3 / 10
    certain + (Nat.toDigits 10 (n / Nat.pow 10 certain)).length

/-- The exponent of the leading decimal digit of a fraction. -/
def leadingExponent (numerator denominator : Nat) : Int :=
  if denominator ≤ numerator then
    (digitCount (numerator / denominator) : Int) - 1
  else
    -(digitCount ((denominator - 1) / numerator) : Int)

/-- The point of the grid of multiples of `10 ^ k` that lies in the interval and nearest to the
value, if one of the value's two neighbours does.  The ends belong to the interval exactly when
`ends` is true, and of two equally near neighbours the larger is taken. -/
def onGrid (interval : Interval) (ends : Bool) (k : Int) : Option Nat :=
  let up := Nat.pow 10 (-k).toNat
  let unit := interval.denominator * Nat.pow 10 k.toNat
  let value := interval.value * up
  let below := value / unit
  let above := below + 1
  let belowFits :=
    if ends then interval.low * up ≤ below * unit else interval.low * up < below * unit
  let aboveFits :=
    if ends then above * unit ≤ interval.high * up else above * unit < interval.high * up
  if belowFits && below != 0 then
    if aboveFits && above * unit - value ≤ value - below * unit then some above else some below
  else if aboveFits then some above
  else none

/-- The first of the grids with `count`, `count + 1`, … leading digits that meets the interval. -/
def search (interval : Interval) (ends : Bool) (leading : Int) : Nat → Nat → Nat × Int
  | 0, count => (interval.value / interval.denominator, leading + 1 - count)
  | fuel + 1, count =>
    let k := leading + 1 - count
    match onGrid interval ends k with
    | some point => (point, k)
    | none => search interval ends leading fuel (count + 1)

/-- Digits of a grid point without the zeros that end it. -/
def trim (point : Nat) (k : Int) : Decimal :=
  let digits := (Nat.toDigits 10 point).map fun c => c.toNat - '0'.toNat
  { digits := (digits.reverse.dropWhile (· == 0)).reverse
    exponent := k + digits.length - 1 }

/-- The fewest digits that read back as the number.  Seventeen always suffice for both formats. -/
def shortest (number : Significand) : Decimal :=
  let interval := number.interval
  let leading := leadingExponent interval.value interval.denominator
  let found := search interval (number.m % 2 == 0) leading 18 1
  trim found.1 found.2

end Significand

end Relational
