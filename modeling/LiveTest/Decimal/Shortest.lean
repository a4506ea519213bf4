import LiveTest.Decimal.Double
/-!
The shortest decimal text of a double: of all decimals that read back as the number, one with the
fewest digits, and of those the nearest.  Which of two at equal distance it is depends on the
style of the text.  A number is compared with its two neighbours on the grid
of one, two, … seventeen digits; the first grid with a neighbour inside the interval that rounds
to the number wins.
-/

namespace LiveTest.Double

/-- A positive number in units of a decimal grid, with the interval of what rounds to it: all
over the common denominator `unit`. -/
structure Gridded where
  low : Nat
  value : Nat
  high : Nat
  unit : Nat
  /-- The ends of the interval belong to it. -/
  closed : Bool

/-- The positive finite number `x` on the grid of the multiples of `10 ^ exponent`. -/
def onGrid (x : Double) (exponent : Int) : Gridded :=
  let (m, e) := x.parts
  let below := if m = leadingBit ∧ -1074 < e then 1 else 2
  let (up, down) := scale 2 (e - 2)
  let (tenDown, tenUp) := scale 10 exponent
  let factor := up * tenUp
  ⟨(4 * m - below) * factor, 4 * m * factor, (4 * m + 2) * factor, down * tenDown, m % 2 = 0⟩
where
  /-- Numerator and denominator of a power. -/
  scale (base : Nat) : Int → Nat × Nat
    | .ofNat e => (Nat.pow base e, 1)
    | .negSucc e => (1, Nat.pow base (e + 1))

/-- The grid point `d` rounds to the number. -/
def Gridded.holds (g : Gridded) (d : Nat) : Bool :=
  if g.closed then g.low ≤ d * g.unit && d * g.unit ≤ g.high
  else g.low < d * g.unit && d * g.unit < g.high

/-- The neighbour on the grid that rounds to the number; of two the nearer, at equal distance the
larger or the even one. -/
def Gridded.hit? (tiesUp : Bool) (g : Gridded) : Option Nat :=
  let d := g.value / g.unit
  match g.holds d, g.holds (d + 1) with
  | false, false => none
  | true, false => some d
  | false, true => some (d + 1)
  | true, true =>
    let down := g.value - d * g.unit
    let up := (d + 1) * g.unit - g.value
    if down < up then some d else if up < down then some (d + 1)
    else some (if !tiesUp && d % 2 = 0 then d else d + 1)

/-- The number of decimal places that bring `n / d` to one or more, at most `fuel`. -/
def placesToOne : Nat → Nat → Nat → Nat
  | 0, _, _ => 0
  | fuel + 1, n, d => if d ≤ n then 0 else placesToOne fuel (10 * n) d + 1

/-- The exponent of ten of the first digit of a positive finite number. -/
def leadingExponent (x : Double) : Int :=
  let (n, d) := x.ratio
  if d ≤ n then ((Nat.toDigits 10 (n / d)).length : Int) - 1 else -(placesToOne 400 n d : Int)

/-- Try the grids of `count` and more digits, `tries` of them. -/
def searchGrids (tiesUp : Bool) (x : Double) (lead : Int) : Nat → Nat → Nat × Int
  | 0, _ => (0, 0)
  | tries + 1, count =>
    let exponent := lead - (count - 1 : Nat)
    match (x.onGrid exponent).hit? tiesUp with
    | some d => (d, exponent)
    | none => searchGrids tiesUp x lead tries (count + 1)

/-- The digits and the exponent of ten of the shortest decimal that reads back as the positive
finite number `x`. -/
def shortest (tiesUp : Bool) (x : Double) : Nat × Int :=
  searchGrids tiesUp x x.leadingExponent 17 1

/-- How a number is written: which of two nearest decimals, for which exponents of the first digit
without an exponent, and how an exponent and a whole number look. -/
structure Style where
  /-- Of two decimals at equal distance it is the larger one, not the even one. -/
  tiesUp : Bool
  positional : Int → Bool
  /-- A positive exponent has a plus sign. -/
  plusSign : Bool
  /-- A whole number without exponent ends in a point and a zero. -/
  pointZero : Bool

/-- Remove the zeros at the end of a digit text. -/
def dropZeros (ds : List Char) : List Char := (ds.reverse.dropWhile (· = '0')).reverse

/-- Digits `ds` whose first stands at the power `lead` of ten, written without exponent. -/
def positionalText (pointZero : Bool) (ds : List Char) : Int → List Char
  | .negSucc lead => '0' :: '.' :: (List.replicate lead '0' ++ ds)
  | .ofNat lead =>
    let whole := ds.take (lead + 1)
    let padded := whole ++ List.replicate (lead + 1 - whole.length) '0'
    match ds.drop (lead + 1) with
    | [] => if pointZero then padded ++ ['.', '0'] else padded
    | fraction => padded ++ '.' :: fraction

/-- Digits `ds` whose first stands at the power `lead` of ten, written with exponent. -/
def scientificText (plusSign : Bool) (ds : List Char) (lead : Int) : List Char :=
  let mantissa := match ds with
    | [] => []
    | [d] => [d]
    | d :: rest => d :: '.' :: rest
  let sign := if lead < 0 then ['-'] else if plusSign then ['+'] else []
  mantissa ++ 'e' :: (sign ++ (toString lead.natAbs).toList)

/-- The text of the magnitude of a finite number. -/
def Style.magnitude (style : Style) (x : Double) : List Char :=
  if x.magnitude = 0 then positionalText style.pointZero ['0'] 0
  else
    let (d, exponent) := shortest style.tiesUp ⟨x.magnitude⟩
    let digits := (toString d).toList
    let lead := exponent + digits.length - 1
    if style.positional lead then positionalText style.pointZero (dropZeros digits) lead
    else scientificText style.plusSign (dropZeros digits) lead

/-- The text of a number. -/
def Style.render (style : Style) (x : Double) : String :=
  if x.isNan then "NaN"
  else
    let body := if x.isInfinite then ['i', 'n', 'f'] else style.magnitude x
    String.ofList (if x.isNegative then '-' :: body else body)

end LiveTest.Double
