import LiveTest.Decimal.Reader
import LiveTest.Toml.Basic
/-!
The TOML values that are single words: numbers, booleans, dates and times.
-/

namespace LiveTest.Toml

open Double (isDigit digitsToNat)

/-- Digits of a kind with single underscores between them, without the underscores. -/
def groupedFrom (digit : Char → Bool) : List Char → Option (List Char)
  | [] => some []
  | '_' :: d :: rest => if digit d then (groupedFrom digit rest).map (d :: ·) else none
  | d :: rest => if digit d then (groupedFrom digit rest).map (d :: ·) else none

/-- At least one digit of a kind, with single underscores between digits. -/
def grouped? (digit : Char → Bool) (cs : List Char) : Option (List Char) :=
  match cs with
  | [] => none
  | d :: rest => if digit d then (groupedFrom digit rest).map (d :: ·) else none

def isHexDigit (c : Char) : Bool :=
  isDigit c || ('a' ≤ c && c ≤ 'f') || ('A' ≤ c && c ≤ 'F')

def isOctalDigit (c : Char) : Bool := '0' ≤ c && c ≤ '7'

def isBinaryDigit (c : Char) : Bool := c = '0' || c = '1'

def digitValue (c : Char) : Nat :=
  if isDigit c then c.toNat - '0'.toNat
  else if 'a' ≤ c then c.toNat - 'a'.toNat + 10
  else c.toNat - 'A'.toNat + 10

def inBase (base : Nat) (ds : List Char) : Nat := ds.foldl (fun n c => base * n + digitValue c) 0

/-- A whole number without a zero in front. -/
def wholeDigits? (cs : List Char) : Option (List Char) :=
  (grouped? isDigit cs).bind fun ds =>
    if ds.head? = some '0' ∧ ds.length ≠ 1 then none else some ds

def splitSign (cs : List Char) : Option Char × List Char :=
  match cs with
  | '+' :: rest => (some '+', rest)
  | '-' :: rest => (some '-', rest)
  | _ => (none, cs)

/-- Whole numbers have 64 bits with a sign. -/
def int64? (n : Int) : Option Int := if -0x8000000000000000 ≤ n ∧ n < 0x8000000000000000 then some n else none

def integer? (cs : List Char) : Option Int :=
  match cs with
  | '0' :: 'x' :: ds => (grouped? isHexDigit ds).bind fun ds => int64? (inBase 16 ds)
  | '0' :: 'o' :: ds => (grouped? isOctalDigit ds).bind fun ds => int64? (inBase 8 ds)
  | '0' :: 'b' :: ds => (grouped? isBinaryDigit ds).bind fun ds => int64? (inBase 2 ds)
  | _ =>
    let (sign, ds) := splitSign cs
    (wholeDigits? ds).bind fun ds =>
      let n : Int := digitsToNat ds
      int64? (if sign = some '-' then -n else n)

def isExponentMark (c : Char) : Bool := c = 'e' || c = 'E'

/-- What follows the whole part of a float: a fraction, an exponent or both, without
underscores. -/
def floatTail? (cs : List Char) : Option (List Char) :=
  let exponent? (cs : List Char) : Option (List Char) :=
    match cs with
    | [] => some []
    | _ :: rest =>
      let (sign, ds) := splitSign rest
      (grouped? isDigit ds).map fun ds => 'e' :: (sign.toList ++ ds)
  match cs with
  | '.' :: rest => do
    let fraction ← grouped? isDigit (rest.takeWhile fun c => !isExponentMark c)
    let exponent ← exponent? (rest.dropWhile fun c => !isExponentMark c)
    return '.' :: (fraction ++ exponent)
  | _ => if cs = [] then none else exponent? cs

def float? (cs : List Char) : Option Double :=
  let (sign, body) := splitSign cs
  let negative : Bool := sign = some '-'
  if body = ['i', 'n', 'f'] then some (Double.infinity.signed negative)
  else if body = ['n', 'a', 'n'] then some (Double.nan.signed negative)
  else do
    let isTail (c : Char) : Bool := c = '.' || isExponentMark c
    let whole ← wholeDigits? (body.takeWhile fun c => !isTail c)
    let tail ← floatTail? (body.dropWhile fun c => !isTail c)
    let x ← Double.magnitudeText? (whole ++ tail)
    if x.isInfinite then none else some (x.signed negative)

def number? (ds : List Char) : Option Nat :=
  if ds ≠ [] && ds.all isDigit then some (digitsToNat ds) else none

def isLeapYear (year : Nat) : Bool := (year % 4 = 0 && year % 100 ≠ 0) || year % 400 = 0

def daysInMonth (year month : Nat) : Nat :=
  if month = 2 then (if isLeapYear year then 29 else 28)
  else if month = 4 ∨ month = 6 ∨ month = 9 ∨ month = 11 then 30
  else 31

/-- A date of ten characters. -/
def date? (cs : List Char) : Option String :=
  match cs with
  | [a, b, c, d, '-', e, f, '-', g, h] => do
    let year ← number? [a, b, c, d]
    let month ← number? [e, f]
    let day ← number? [g, h]
    if 1 ≤ month ∧ month ≤ 12 ∧ 1 ≤ day ∧ day ≤ daysInMonth year month then
      some (String.ofList cs)
    else none
  | _ => none

/-- The fraction of a second in its normal form: nine digits at most and no zero at the end, but
one zero if there is nothing else. -/
def fractionText (ds : List Char) : List Char :=
  match ((ds.take 9).reverse.dropWhile (· = '0')).reverse with
  | [] => ['.', '0']
  | ds => '.' :: ds

/-- A time without offset.  The seconds may be left out. -/
def time? (cs : List Char) : Option String :=
  match cs with
  | a :: b :: ':' :: c :: d :: rest => do
    let hour ← number? [a, b]
    let minute ← number? [c, d]
    if 23 < hour ∨ 59 < minute then none
    else match rest with
      | [] => some (String.ofList cs)
      | ':' :: e :: f :: rest => do
        let second ← number? [e, f]
        if 60 < second then none
        else
          let start := [a, b, ':', c, d, ':', e, f]
          match rest with
          | [] => some (String.ofList start)
          | '.' :: ds =>
            if ds ≠ [] && ds.all isDigit then some (String.ofList (start ++ fractionText ds))
            else none
          | _ => none
      | _ => none
  | _ => none

/-- An offset from universal time. -/
def offset? (cs : List Char) : Option String :=
  match cs with
  | ['Z'] | ['z'] => some "Z"
  | [sign, a, b, ':', c, d] => do
    let hour ← number? [a, b]
    let minute ← number? [c, d]
    if (sign ≠ '+' ∧ sign ≠ '-') ∨ 23 < hour ∨ 59 < minute then none
    else if hour = 0 ∧ minute = 0 then some "+00:00"
    else some (String.ofList cs)
  | _ => none

def isTimeChar (c : Char) : Bool := isDigit c || c = ':' || c = '.'

/-- A time with or without offset. -/
def offsetTime? (cs : List Char) : Option String := do
  let time ← time? (cs.takeWhile isTimeChar)
  match cs.dropWhile isTimeChar with
  | [] => return time
  | rest => return time ++ (← offset? rest)

/-- A date, a time, or a date and a time. -/
def datetime? (cs : List Char) : Option String :=
  match cs.drop 10 with
  | [] => (date? cs).or (time? cs)
  | sep :: rest =>
    match date? (cs.take 10) with
    | none => time? cs
    | some date =>
      if sep = 'T' ∨ sep = 't' ∨ sep = ' ' then
        (offsetTime? rest).map fun time => date ++ "T" ++ time
      else none

/-- The value of a word. -/
def scalar? (cs : List Char) : Option TomlValue :=
  if cs = ['t', 'r', 'u', 'e'] then some (.bool true)
  else if cs = ['f', 'a', 'l', 's', 'e'] then some (.bool false)
  else
    ((integer? cs).map TomlValue.int).or
      (((float? cs).map TomlValue.float).or ((datetime? cs).map TomlValue.datetime))

end LiveTest.Toml
