/-! # Decimal numbers and their nearest binary fraction

A decimal literal stands for the nearest number with 53 significant bits and a binary exponent of at
least -1074, a tie going to the even neighbour. Whole parts and scaled values are taken of that
number, in exact arithmetic.
-/

namespace TeamAccess

/-- The number `± digits · 10 ^ exponent`. -/
structure Decimal where
  negative : Bool
  digits : Nat
  exponent : Int
  deriving DecidableEq, Repr

/-- The number `mantissa · 2 ^ exponent`. -/
structure BinaryFraction where
  mantissa : Int
  exponent : Int
  deriving DecidableEq, Repr

/-- The quotient rounded to the nearest whole number, a tie going to the even neighbour. -/
def roundQuotient (num den : Nat) : Nat :=
  let q := num / den
  let twice := 2 * (num % den)
  if den < twice || (den == twice && q % 2 == 1) then q + 1 else q

namespace BinaryFraction

/-- The whole number nearest to `scale` times a number, a tie going to the even neighbour. -/
def scaled (x : BinaryFraction) (scale : Nat) : Int :=
  let m := x.mantissa.natAbs * scale
  let n := if 0 ≤ x.exponent then m * Nat.pow 2 x.exponent.toNat
    else roundQuotient m (Nat.pow 2 (-x.exponent).toNat)
  if x.mantissa < 0 then -n else n

/-- The whole part, the fraction cut off. -/
def truncate (x : BinaryFraction) : Int :=
  if 0 ≤ x.exponent then x.mantissa * Nat.pow 2 x.exponent.toNat
  else x.mantissa.tdiv (Nat.pow 2 (-x.exponent).toNat)

/-- Whether a number has no fraction. -/
def isWhole (x : BinaryFraction) : Bool :=
  0 ≤ x.exponent || x.mantissa % Nat.pow 2 (-x.exponent).toNat == 0

end BinaryFraction

namespace Decimal

/-- The number of significant bits. -/
def precision : Nat := 53

/-- The magnitude `num / den` in 53 bits, `none` from `2 ^ 1024` on. -/
def nearestMagnitude (num den : Nat) : Option (Nat × Int) :=
  let guess : Int := num.log2 - den.log2
  let atLeast : Bool :=
    if 0 ≤ guess then den * Nat.pow 2 guess.toNat ≤ num
    else den ≤ num * Nat.pow 2 (-guess).toNat
  let e := max ((if atLeast then guess + 1 else guess) - precision) (-1074)
  let m := if 0 ≤ e then roundQuotient num (den * Nat.pow 2 e.toNat)
    else roundQuotient (num * Nat.pow 2 (-e).toNat) den
  if 1024 < e + precision || (e == 971 && m == Nat.pow 2 precision) then none else some (m, e)

/-- The nearest binary fraction; `none` for a number too large to have one. -/
def nearest (d : Decimal) : Option BinaryFraction :=
  if d.digits = 0 then some ⟨0, 0⟩
  else
    let size := d.exponent + (Nat.toDigits 10 d.digits).length
    if 310 < size then none
    else if size < -330 then some ⟨0, 0⟩
    else
      let magnitude :=
        if 0 ≤ d.exponent then nearestMagnitude (d.digits * Nat.pow 10 d.exponent.toNat) 1
        else nearestMagnitude d.digits (Nat.pow 10 (-d.exponent).toNat)
      magnitude.map fun (m, e) => ⟨if d.negative then -m else m, e⟩

end Decimal

end TeamAccess
