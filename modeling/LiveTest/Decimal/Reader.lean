import LiveTest.Decimal.Double
/-!
Reading a decimal text as the nearest double.
-/

namespace LiveTest.Double

def isDigit (c : Char) : Bool := '0' ≤ c && c ≤ '9'

/-- The number of a digit text. -/
def digitsToNat (ds : List Char) : Nat :=
  ds.foldl (fun n c => 10 * n + (c.toNat - '0'.toNat)) 0

/-- The double nearest to `0.d₁d₂… * 10 ^ lead` for the digits `ds` without zeros in front.  Far
outside of the range no power needs to be computed. -/
def ofDigits (ds : List Char) (lead : Int) : Double :=
  if ds = [] then zero
  else if 400 < lead then infinity
  else if lead < -400 then zero
  else ofDecimal (digitsToNat ds) (lead - ds.length)

/-- A number with an optional sign, as digits, point and exponent. -/
def exponentText? (cs : List Char) : Option Int :=
  let (negative, ds) := match cs with
    | '-' :: rest => (true, rest)
    | '+' :: rest => (false, rest)
    | _ => (false, cs)
  if ds = [] || !ds.all isDigit then none
  else
    let n : Int := digitsToNat ds
    some (if negative then -n else n)

/-- A magnitude: digits with an optional point among them and an optional exponent. -/
def magnitudeText? (cs : List Char) : Option Double :=
  let whole := cs.takeWhile isDigit
  let rest := cs.dropWhile isDigit
  let (fraction, rest) := match rest with
    | '.' :: more => (more.takeWhile isDigit, more.dropWhile isDigit)
    | _ => ([], rest)
  if whole = [] ∧ fraction = [] then none
  else
    let exponent := match rest with
      | [] => some 0
      | e :: more => if e = 'e' || e = 'E' then exponentText? more else none
    exponent.map fun exponent =>
      let digits := whole ++ fraction
      let zeros := (digits.takeWhile (· = '0')).length
      ofDigits (digits.drop zeros) (exponent + whole.length - zeros)

/-- The double that a text stands for; words for infinity and for no number are read in any
case. -/
def parse? (s : String) : Option Double :=
  let (negative, cs) := match s.toList with
    | '-' :: rest => (true, rest)
    | '+' :: rest => (false, rest)
    | cs => (false, cs)
  let word := String.ofList (cs.map Char.toLower)
  let magnitude :=
    if word = "inf" ∨ word = "infinity" then some infinity
    else if word = "nan" then some nan
    else magnitudeText? cs
  magnitude.map (signed negative)

end LiveTest.Double
