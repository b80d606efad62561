import EventAtlas.Text.Digits

namespace EventAtlas

/-- A day of the proleptic Gregorian calendar. -/
structure Date where
  year : Int
  month : Nat
  day : Nat
  deriving DecidableEq, Repr

namespace Date

def isLeap (year : Int) : Bool := year % 4 == 0 && (year % 100 != 0 || year % 400 == 0)

def daysIn (year : Int) (month : Nat) : Nat :=
  if month = 2 then (if isLeap year then 29 else 28)
  else if month = 4 ∨ month = 6 ∨ month = 9 ∨ month = 11 then 30
  else 31

def isValid (d : Date) : Bool :=
  1 ≤ d.month && d.month ≤ 12 && 1 ≤ d.day && d.day ≤ daysIn d.year d.month

def next (d : Date) : Date :=
  if d.day < daysIn d.year d.month then { d with day := d.day + 1 }
  else if d.month < 12 then ⟨d.year, d.month + 1, 1⟩
  else ⟨d.year + 1, 1, 1⟩

def previous (d : Date) : Date :=
  if 1 < d.day then { d with day := d.day - 1 }
  else if 1 < d.month then ⟨d.year, d.month - 1, daysIn d.year (d.month - 1)⟩
  else ⟨d.year - 1, 12, 31⟩

end Date

/-- A moment in coordinated universal time: a second of a day, and the nanoseconds since it began. A leap second has
no number of its own but lengthens the second before it, to nanoseconds from 1000000000 on. -/
structure Timestamp where
  date : Date
  secondOfDay : Fin 86400
  fraction : Fin 2000000000
  deriving DecidableEq, Repr

namespace Timestamp

open Text (digitsValue)

/-- A numeral with zeros before it up to a width. -/
def padded (width n : Nat) : List Char :=
  let digits := Nat.toDigits 10 n
  List.replicate (width - digits.length) '0' ++ digits

/-- Four digits, or a sign and at least four digits outside the first ten thousand years. -/
def yearText (year : Int) : List Char :=
  if 0 ≤ year ∧ year ≤ 9999 then padded 4 year.toNat
  else (if year < 0 then '-' else '+') :: padded 4 year.natAbs

def dateText (d : Date) : List Char :=
  yearText d.year ++ '-' :: padded 2 d.month ++ '-' :: padded 2 d.day

def hour (t : Timestamp) : Nat := t.secondOfDay / 3600

def minute (t : Timestamp) : Nat := t.secondOfDay / 60 % 60

/-- The second of the minute, 60 within a leap second at its end. -/
def second (t : Timestamp) : Nat := t.secondOfDay % 60 + t.fraction / 1000000000

def nanos (t : Timestamp) : Nat := t.fraction % 1000000000

def clockText (t : Timestamp) : List Char :=
  padded 2 t.hour ++ ':' :: padded 2 t.minute ++ ':' :: padded 2 t.second

/-- The fraction of a second in 0, 3, 6 or 9 digits, the fewest that lose nothing. -/
def fractionText (nanos : Nat) : List Char :=
  if nanos = 0 then []
  else if nanos % 1000000 = 0 then '.' :: padded 3 (nanos / 1000000)
  else if nanos % 1000 = 0 then '.' :: padded 6 (nanos / 1000)
  else '.' :: padded 9 nanos

/-- Date and time with `zone` as the mark of the time zone. -/
def textWith (zone : List Char) (t : Timestamp) : List Char :=
  dateText t.date ++ 'T' :: t.clockText ++ fractionText t.nanos ++ zone

/-- The text with a letter for the time zone. -/
def shortText (t : Timestamp) : String := String.ofList (t.textWith ['Z'])

/-- The text with a numeric time zone. -/
def longText (t : Timestamp) : String := String.ofList (t.textWith "+00:00".toList)

/-- The text for people, in whole seconds. -/
def plainText (t : Timestamp) : String :=
  String.ofList (dateText t.date ++ ' ' :: t.clockText ++ " UTC".toList)

/-- The moment that comes a number of nanoseconds after the start of 1970. -/
def ofEpoch (nanos : Nat) : Timestamp :=
  let seconds := nanos / 1000000000
  { date := Nat.repeat Date.next (seconds / 86400) ⟨1970, 1, 1⟩
    secondOfDay := Fin.ofNat 86400 seconds
    fraction := Fin.ofNat 2000000000 (nanos % 1000000000) }

/-- A numeral of exactly `count` digits at the start of a text, and what comes after it. -/
def number? (count : Nat) (s : List Char) : Option (Nat × List Char) :=
  let digits := s.take count
  if digits.length = count ∧ digits.all Char.isDigit then some (digitsValue digits, s.drop count) else none

/-- What comes after one of the given characters. -/
def expect? (marks : List Char) : List Char → Option (List Char)
  | c :: rest => if marks.contains c then some rest else none
  | [] => none

/-- A numeral of exactly `count` digits behind one of the given characters, and what comes after it. -/
def numberAfter? (marks : List Char) (count : Nat) (s : List Char) : Option (Nat × List Char) :=
  (expect? marks s).bind (number? count)

/-- A fraction of a second if there is a point. Digits after the ninth do not count. -/
def fraction? : List Char → Option (Nat × List Char)
  | '.' :: rest =>
    match rest.takeWhile Char.isDigit with
    | [] => none
    | digits =>
      let nine := (digits ++ List.replicate 9 '0').take 9
      some (digitsValue nine, rest.dropWhile Char.isDigit)
  | s => some (0, s)

/-- A time zone in minutes east of universal time. -/
def zone? : List Char → Option (Int × List Char)
  | c :: rest =>
    if c = 'Z' ∨ c = 'z' then some (0, rest)
    else do
      let sign ← if c = '+' then some (1 : Int) else if c = '-' ∨ c = '−' then some (-1) else none
      let (hours, rest) ← number? 2 rest
      let (minutes, rest) ← numberAfter? [':'] 2 rest
      if hours ≤ 23 ∧ minutes ≤ 59 then some (sign * (60 * hours + minutes), rest) else none
  | [] => none

/-- Reads date, time and time zone, and takes the zone off. Second 60 is a leap second. -/
def parse? (text : String) : Option Timestamp := do
  let (year, s) ← number? 4 text.toList
  let (month, s) ← numberAfter? ['-'] 2 s
  let (day, s) ← numberAfter? ['-'] 2 s
  let (hour, s) ← numberAfter? ['T', 't', ' '] 2 s
  let (minute, s) ← numberAfter? [':'] 2 s
  let (second, s) ← numberAfter? [':'] 2 s
  let (nanos, s) ← fraction? s
  let (zone, s) ← zone? s
  let date : Date := ⟨year, month, day⟩
  if s = [] ∧ date.isValid ∧ hour ≤ 23 ∧ minute ≤ 59 ∧ second ≤ 60 then
    let minutes : Int := 60 * hour + minute - zone
    let date := if minutes < 0 then date.previous else if minutes < 1440 then date else date.next
    let minuteOfDay := (minutes % 1440).toNat
    let leap := if second = 60 then 1000000000 else 0
    return ⟨date, Fin.ofNat 86400 (60 * minuteOfDay + min second 59), Fin.ofNat 2000000000 (nanos + leap)⟩
  else none

end Timestamp

end EventAtlas
