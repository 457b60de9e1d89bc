set_option autoImplicit false

/-! Whether a decimal number is finite in double precision. The digits, the power of ten and their
product are each rounded to 53 binary digits. -/

namespace RecordStore.Precision

def digits : Nat := 53

/-- A number divided by a power of two, to the nearest; halfway between two, to the even one. -/
def nearestQuotient (number shift : Nat) : Nat :=
  let step := Nat.pow 2 shift
  let quotient := number / step
  let twice := 2 * (number % step)
  if twice < step then quotient
  else if step < twice then quotient + 1
  else quotient + quotient % 2

/-- The nearest number that has no more binary digits than are kept. -/
def nearest (number : Nat) : Nat :=
  let shift := number.log2 + 1 - digits
  nearestQuotient number shift * Nat.pow 2 shift

/-- The least number that is nearer to infinity than to the largest finite number. -/
def overflow : Nat := (Nat.pow 2 (digits + 1) - 1) * Nat.pow 2 970

def largestPower : Nat := 308

def isFinite (word : Nat) (exponent : Int) : Bool :=
  if word = 0 ∨ exponent < 0 then true
  else if largestPower < exponent.toNat then false
  else nearest word * nearest (Nat.pow 10 exponent.toNat) < overflow

end RecordStore.Precision
