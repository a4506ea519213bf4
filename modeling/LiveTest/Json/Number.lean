import LiveTest.Json.Basic
/-!
Reading the numbers of a JSON text.  A whole number of 64 bits is read exactly.  Every other
number is read by its first digits that fit 64 bits, rounded to a double and then multiplied or
divided by a power of ten, which is quick and at most a few units in the last place away.
-/

namespace LiveTest

/-- What can be wrong with a text that should be JSON. -/
inductive Fault
  /-- A character stands where it must not. -/
  | malformed
  /-- The text ends too early. -/
  | truncated
deriving DecidableEq

namespace Json

/-- The first number of more than 64 bits. -/
def wordLimit : Nat := 0x10000000000000000

def isDigit (c : Char) : Bool := '0' ≤ c && c ≤ '9'

def digitValue (c : Char) : Nat := c.toNat - '0'.toNat

/-- Take in digits while the significand fits 64 bits: the significand and the digits left. -/
def significand (acc : Nat) : List Char → Nat × List Char
  | [] => (acc, [])
  | c :: rest =>
    if acc * 10 + digitValue c < wordLimit then significand (acc * 10 + digitValue c) rest
    else (acc, c :: rest)

/-- Scale a significand by a power of ten; none where the result is out of range.  Steps of 308
places go downwards while the power itself is out of range. -/
def scaled (fuel : Nat) (f : Double) (exponent : Int) : Option Double :=
  if exponent.natAbs ≤ 308 then
    let power := Double.ofNat (Nat.pow 10 exponent.natAbs)
    if 0 ≤ exponent then
      let x := f.times power
      if x.isInfinite then none else some x
    else some (f.dividedBy power)
  else if f = Double.zero then some f
  else if 0 ≤ exponent then none
  else match fuel with
    | 0 => some Double.zero
    | fuel + 1 => scaled fuel (f.dividedBy (Double.ofNat (Nat.pow 10 308))) (exponent + 308)

/-- The parts of a number that is not whole, or too large for a whole one. -/
def floatOf (negative : Bool) (digits : Nat) (exponent : Int) : Option JsonNumber :=
  (scaled 4 (Double.ofNat digits) exponent).map fun x => .float (x.signed negative)

/-- The number of a digit text. -/
def digitsToNat (ds : List Char) : Nat := ds.foldl (fun n c => 10 * n + digitValue c) 0

/-- The first exponent that is too large to be read. -/
def exponentLimit : Nat := 0x80000000

/-- What follows the `e` of an exponent: its value and the rest of the text. -/
def exponentPart (cs : List Char) : Except Fault (Int × List Char) :=
  let (negative, cs) := match cs with
    | '+' :: rest => (false, rest)
    | '-' :: rest => (true, rest)
    | _ => (false, cs)
  match cs with
  | [] => .error .truncated
  | c :: _ =>
    if isDigit c then
      let n : Int := digitsToNat (cs.takeWhile isDigit)
      .ok (if negative then -n else n, cs.dropWhile isDigit)
    else .error .malformed

/-- The number with these first digits and this exponent of its own, none out of range. -/
def withExponent (negative : Bool) (digits : Nat) (start exponent : Int) : Option JsonNumber :=
  if exponentLimit ≤ exponent.natAbs then
    if digits ≠ 0 ∧ 0 < exponent then none
    else some (.float (Double.zero.signed negative))
  else floatOf negative digits (start + exponent)

/-- What follows the digits of a number: a fraction, an exponent, or neither. -/
def afterDigits (negative : Bool) (ds cs : List Char) :
    Except Fault (Option JsonNumber × List Char) :=
  let (digits, left) := significand 0 ds
  match cs with
  | '.' :: rest =>
    match rest with
    | [] => .error .truncated
    | c :: _ =>
      if isDigit c then
        let fraction := rest.takeWhile isDigit
        let (digits, unread) := significand digits fraction
        let exponent : Int := (left.length : Int) - (fraction.length - unread.length : Nat)
        match rest.dropWhile isDigit with
        | 'e' :: rest | 'E' :: rest =>
          (exponentPart rest).map fun (e, rest) => (withExponent negative digits exponent e, rest)
        | rest => .ok (floatOf negative digits exponent, rest)
      else .error .malformed
  | 'e' :: rest | 'E' :: rest =>
    (exponentPart rest).map fun (e, rest) => (withExponent negative digits left.length e, rest)
  | _ =>
    if left ≠ [] then .ok (floatOf negative digits left.length, cs)
    else if negative then
      if digits = 0 ∨ 0x8000000000000000 < digits then
        .ok (some (.float ((Double.ofNat digits).signed true)), cs)
      else .ok (some (.int (-(digits : Int))), cs)
    else .ok (some (.int digits), cs)

/-- The number at the start of a text, none where it is out of range, and the rest of the text. -/
def readNumber (cs : List Char) : Except Fault (Option JsonNumber × List Char) :=
  let (negative, cs) := match cs with
    | '-' :: rest => (true, rest)
    | _ => (false, cs)
  match cs with
  | [] => .error .truncated
  | c :: rest =>
    if c = '0' then
      if rest.head?.any isDigit then .error .malformed else afterDigits negative ['0'] rest
    else if isDigit c then afterDigits negative (cs.takeWhile isDigit) (cs.dropWhile isDigit)
    else .error .malformed

end Json
end LiveTest
