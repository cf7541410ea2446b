import Edi.Text.Blank
import Edi.Text.Numeral

namespace Edi

/-- A calendar date and a time of day. The second 60 is a leap second. -/
structure Timestamp where
  year : Int
  month : Nat
  day : Nat
  hour : Nat
  minute : Nat
  second : Nat
  deriving DecidableEq, Repr

namespace Timestamp

def isLeap (year : Int) : Bool := year % 4 = 0 && (year % 100 ≠ 0 || year % 400 = 0)

def daysIn (year : Int) (month : Nat) : Nat :=
  match month with
  | 2 => if isLeap year then 29 else 28
  | 4 | 6 | 9 | 11 => 30
  | _ => 31

def digits? (width : Nat) (cs : List Char) : Option (Nat × List Char) :=
  let digits := (cs.take width).takeWhile Char.isDigit
  if digits = [] then none else some (Text.ofDigits digits, cs.drop digits.length)

/-- A numeric item of chrono 0.4 such as `%m`, `%d` or `%H`: at most two digits, with white space
before them passed over. -/
def number? (cs : List Char) : Option (Nat × List Char) :=
  digits? 2 (cs.dropWhile Text.isWhite)

/-- The item `%Y` of chrono 0.4: a year of at most four digits, or of any number of digits after a
sign. -/
def year? (cs : List Char) : Option (Int × List Char) :=
  match cs.dropWhile Text.isWhite with
  | '-' :: cs => (digits? cs.length cs).map fun (n, rest) ↦ (-n, rest)
  | '+' :: cs => (digits? cs.length cs).map fun (n, rest) ↦ (n, rest)
  | cs => (digits? 4 cs).map fun (n, rest) ↦ (n, rest)

/-- The item `%y` of chrono 0.4: a year of at most two digits, from 1970 to 2069. -/
def shortYear? (cs : List Char) : Option (Int × List Char) :=
  (number? cs).map fun (n, rest) ↦ (if n < 70 then 2000 + n else 1900 + n, rest)

def byteSize (cs : List Char) : Nat := (String.ofList cs).utf8ByteSize

def bytePrefix? : Nat → List Char → Option (List Char)
  | _, [] => some []
  | n, c :: cs =>
    if n = 0 then some []
    else if c.utf8Size ≤ n then (bytePrefix? (n - c.utf8Size) cs).map (c :: ·)
    else none

/-- Year, month and day: the century is there in a date of eight bytes, not in one of six. -/
def date? (cs : List Char) : Option (Int × Nat × Nat) := do
  let (year, cs) ←
    if byteSize cs = 6 then shortYear? cs else if byteSize cs = 8 then year? cs else none
  let (month, cs) ← number? cs
  let (day, cs) ← number? cs
  if 1 ≤ month ∧ month ≤ 12 ∧ 1 ≤ day ∧ day ≤ daysIn year month ∧ cs = [] then
    some (year, month, day)
  else
    none

/-- Hour, minute and second, of which only the first six bytes count; no text is midnight. -/
def time? (cs : List Char) : Option (Nat × Nat × Nat) := do
  let cs ← bytePrefix? 6 cs
  if cs = [] then return (0, 0, 0)
  let size := byteSize cs
  let (hour, cs) ← number? cs
  let (minute, cs) ← number? cs
  let (second, cs) ← if size = 4 then some (0, cs) else if size = 6 then number? cs else none
  if hour ≤ 23 ∧ minute ≤ 59 ∧ second ≤ 60 ∧ cs = [] then some (hour, minute, second) else none

def ofFields? (date time : String) : Option Timestamp := do
  let (year, month, day) ← date? date.toList
  let (hour, minute, second) ← time? time.toList
  some { year, month, day, hour, minute, second }

def yearText (year : Int) : String :=
  let digits := Text.zeroPadded 4 year.natAbs
  if year < 0 then "-" ++ digits else if 9999 < year then "+" ++ digits else digits

def text (mark : String) (t : Timestamp) : String :=
  let two := Text.zeroPadded 2
  yearText t.year ++ "-" ++ two t.month ++ "-" ++ two t.day ++ mark ++ two t.hour ++ ":" ++
    two t.minute ++ ":" ++ two t.second

end Timestamp

end Edi
