import MiniSql.Number.Numeral
import MiniSql.Text.Letter

namespace MiniSql

/-- A day of the Gregorian calendar, which goes back beyond its introduction. -/
structure Date where
  year : Int
  month : Nat
  day : Nat

/-- A second of a day in universal time. -/
structure Time where
  hour : Nat
  minute : Nat
  second : Nat

namespace Date

def isLeapYear (year : Int) : Bool :=
  year % 4 = 0 && (year % 100 ≠ 0 || year % 400 = 0)

def daysInMonth (year : Int) (month : Nat) : Nat :=
  if month = 2 then (if isLeapYear year then 29 else 28)
  else if month = 4 ∨ month = 6 ∨ month = 9 ∨ month = 11 then 30
  else 31

def isValid (d : Date) : Bool :=
  -262143 ≤ d.year && d.year ≤ 262142 && 1 ≤ d.month && d.month ≤ 12 && 1 ≤ d.day
    && d.day ≤ daysInMonth d.year d.month

/-- The days from 1970-01-01 on. Years begin in March here, so that a leap day ends its year. -/
def toDays (d : Date) : Int :=
  let year := if d.month ≤ 2 then d.year - 1 else d.year
  let era := year / 400
  let yearOfEra := year % 400
  let dayOfYear := Int.ofNat ((153 * ((d.month + 9) % 12) + 2) / 5 + d.day - 1)
  era * 146097 + yearOfEra * 365 + yearOfEra / 4 - yearOfEra / 100 + dayOfYear - 719468

/-- The date that is the given number of days after 1970-01-01. -/
def ofDays (days : Int) : Date :=
  let shifted := days + 719468
  let era := shifted / 146097
  let dayOfEra := shifted % 146097
  let yearOfEra :=
    (dayOfEra - dayOfEra / 1460 + dayOfEra / 36524 - dayOfEra / 146096) / 365
  let dayOfYear := (dayOfEra - (365 * yearOfEra + yearOfEra / 4 - yearOfEra / 100)).toNat
  let fromMarch := (5 * dayOfYear + 2) / 153
  let month := if fromMarch < 10 then fromMarch + 3 else fromMarch - 9
  let year := yearOfEra + era * 400
  ⟨if month ≤ 2 then year + 1 else year, month, dayOfYear - (153 * fromMarch + 2) / 5 + 1⟩

end Date

namespace Calendar

/-- A number with at least `width` digits. -/
def padded (width n : Nat) : String :=
  let digits := Nat.toDigits 10 n
  String.ofList (List.replicate (width - digits.length) '0' ++ digits)

/-- A year has at least four digits, and a sign unless it has just four. -/
def yearText (year : Int) : String :=
  let digits := padded 4 year.natAbs
  if 0 ≤ year ∧ year ≤ 9999 then digits
  else if year < 0 then "-" ++ digits
  else "+" ++ digits

/-- The moment `seconds` after the start of 1970; the hour has at least `hourWidth` digits. None
beyond the years of the calendar. -/
def format? (hourWidth : Nat) (seconds : Int) : Option String :=
  let date := Date.ofDays (seconds / 86400)
  let second := (seconds % 86400).toNat
  if date.isValid then
    some (yearText date.year ++ "-" ++ padded 2 date.month ++ "-" ++ padded 2 date.day ++ " "
      ++ padded hourWidth (second / 3600) ++ ":" ++ padded 2 (second / 60 % 60) ++ ":"
      ++ padded 2 (second % 60))
  else none

/-- A number of at most `width` digits, after blanks. -/
def readNumber? (width : Nat) (cs : List Char) : Option (Nat × List Char) :=
  let cs := Text.dropBlanks cs
  let digits := (cs.take width).takeWhile Char.isDigit
  if digits.isEmpty then none else some (Numeral.digitsValue digits, cs.drop digits.length)

/-- All digits at the start of the text, of which there has to be one. -/
def readDigits? (cs : List Char) : Option (Int × List Char) :=
  match cs.takeWhile Char.isDigit with
  | [] => none
  | digits => some (Numeral.digitsValue digits, cs.dropWhile Char.isDigit)

/-- A year; one with a sign may have more than four digits. -/
def readYear? (cs : List Char) : Option (Int × List Char) :=
  match Text.dropBlanks cs with
  | '-' :: cs => (readDigits? cs).map fun (n, rest) => (-n, rest)
  | '+' :: cs => readDigits? cs
  | cs => (readNumber? 4 cs).map fun (n, rest) => ((n : Int), rest)

/-- The text after a character that has to come next. -/
def skip? (c : Char) : List Char → Option (List Char)
  | d :: rest => if d = c then some rest else none
  | [] => none

def readDate? (cs : List Char) : Option (Date × List Char) := do
  let (year, cs) ← readYear? cs
  let cs ← skip? '-' cs
  let (month, cs) ← readNumber? 2 cs
  let cs ← skip? '-' cs
  let (day, cs) ← readNumber? 2 cs
  let date : Date := ⟨year, month, day⟩
  if date.isValid then some (date, cs) else none

/-- A time of day. A leap second is read as the second before it. -/
def readTime? (cs : List Char) : Option (Time × List Char) := do
  let (hour, cs) ← readNumber? 2 cs
  let cs ← skip? ':' cs
  let (minute, cs) ← readNumber? 2 cs
  let cs ← skip? ':' cs
  let (second, cs) ← readNumber? 2 cs
  if hour ≤ 23 ∧ minute ≤ 59 ∧ second ≤ 60 then some (⟨hour, minute, min second 59⟩, cs) else none

def toSeconds (date : Date) (time : Time) : Int :=
  date.toDays * 86400 + Int.ofNat (time.hour * 3600 + time.minute * 60 + time.second)

/-- The seconds from 1970 on to the moment that a text names: a date, or a date and a time. -/
def seconds? (s : String) : Option Int := do
  let (date, rest) ← readDate? (Text.trimBlanks s.toList)
  if rest.isEmpty then return toSeconds date ⟨0, 0, 0⟩
  else
    let (time, rest) ← readTime? rest
    if rest.isEmpty then return toSeconds date time else none

end Calendar

end MiniSql
