/-!
Binary floating-point numbers of 64 bits, by their bit pattern.  Rounding, products and quotients
are exact integer arithmetic followed by one rounding to the nearest even neighbour, so nothing
here depends on the machine's own arithmetic.
-/

namespace LiveTest

/-- A double, by its bits: a sign, eleven bits of exponent and fifty-two of fraction. -/
structure Double where
  bits : Nat
deriving DecidableEq, Inhabited

namespace Double

/-- The highest of the bits: 2 to the power of 63. -/
def signBit : Nat := 0x8000000000000000

/-- The first bit above the fraction: 2 to the power of 52. -/
def leadingBit : Nat := 0x10000000000000

def infinity : Double := ⟨2047 * leadingBit⟩

def nan : Double := ⟨2047 * leadingBit + leadingBit / 2⟩

def zero : Double := ⟨0⟩

def isNegative (x : Double) : Bool := signBit ≤ x.bits

/-- The bits without the sign. -/
def magnitude (x : Double) : Nat := x.bits % signBit

def negate (x : Double) : Double := ⟨(x.bits + signBit) % (2 * signBit)⟩

/-- The same number with the sign asked for. -/
def signed (negative : Bool) (x : Double) : Double := if negative then x.negate else x

def isNan (x : Double) : Bool := infinity.bits < x.magnitude

def isInfinite (x : Double) : Bool := x.magnitude = infinity.bits

def isFinite (x : Double) : Bool := x.magnitude < infinity.bits

/-- Equality as numbers: the two zeros are equal and what is no number equals nothing. -/
def equal (x y : Double) : Bool :=
  !x.isNan && !y.isNan && (x.bits == y.bits || (x.magnitude == 0 && y.magnitude == 0))

/-- The mantissa `m` and the exponent `e` of a finite number whose magnitude is `m * 2 ^ e`. -/
def parts (x : Double) : Nat × Int :=
  let field := x.magnitude / leadingBit
  let fraction := x.magnitude % leadingBit
  if field = 0 then (fraction, -1074) else (fraction + leadingBit, Int.ofNat field - 1075)

/-- The finite number `n / d` that the parts `m * 2 ^ e` stand for. -/
def ratio (x : Double) : Nat × Nat :=
  match x.parts with
  | (m, .ofNat e) => (m * Nat.pow 2 e, 1)
  | (m, .negSucc e) => (m, Nat.pow 2 (e + 1))

/-- Divide and round to the nearest whole number, a half to the even one. -/
def divideToEven (n d : Nat) : Nat :=
  let q := n / d
  let r := n % d
  if 2 * r < d then q else if d < 2 * r then q + 1 else if q % 2 = 0 then q else q + 1

/-- `n / d` measured in units of `2 ^ e`, as a fraction. -/
def inUnits (n d : Nat) : Int → Nat × Nat
  | .ofNat e => (n, d * Nat.pow 2 e)
  | .negSucc e => (n * Nat.pow 2 (e + 1), d)

/-- The exponent of the last bit that a number near `n / d` keeps. -/
def lastBit (n d : Nat) : Int :=
  let guess : Int := (n.log2 : Int) - d.log2 - 52
  let (a, b) := inUnits n d guess
  let few : Bool := a / b < leadingBit
  max (if few then guess - 1 else guess) (-1074)

/-- The double nearest to the fraction `n / d`, infinite where the range ends. -/
def ofRatio (n d : Nat) : Double :=
  if n = 0 then zero
  else
    let e := lastBit n d
    let (a, b) := inUnits n d e
    let m := divideToEven a b
    let (m, e) := if m = 2 * leadingBit then (leadingBit, e + 1) else (m, e)
    if 971 < e then infinity
    else if m < leadingBit then ⟨m⟩
    else ⟨(e + 1075).toNat * leadingBit + (m - leadingBit)⟩

/-- The double nearest to the whole number `n`. -/
def ofNat (n : Nat) : Double := ofRatio n 1

/-- The product of the magnitudes of two finite numbers. -/
def times (x y : Double) : Double :=
  let (a, b) := x.ratio
  let (c, d) := y.ratio
  ofRatio (a * c) (b * d)

/-- The quotient of the magnitudes of two finite numbers, the second not zero. -/
def dividedBy (x y : Double) : Double :=
  let (a, b) := x.ratio
  let (c, d) := y.ratio
  ofRatio (a * d) (b * c)

/-- The double nearest to `digits * 10 ^ exponent`. -/
def ofDecimal (digits : Nat) : Int → Double
  | .ofNat e => ofRatio (digits * Nat.pow 10 e) 1
  | .negSucc e => ofRatio digits (Nat.pow 10 (e + 1))

/-- The whole number nearest to a number that is not negative, a half upwards. -/
def roundHalfUp (x : Double) : Nat :=
  let (n, d) := x.ratio
  (2 * n + d) / (2 * d)

end Double
end LiveTest
