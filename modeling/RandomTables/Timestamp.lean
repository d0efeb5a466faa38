import RandomTables.Text.Number
import RandomTables.Text.Quoted

/-!
# Timestamps

A date, a time of day to the microsecond, and an optional distance from universal time. Timestamps
are read in the forms of ISO 8601 and written in the extended form; the date may be a calendar date
or a week date, the separators may be left out, and a time may stop after its hours or minutes.
-/
namespace RandomTables

/-- A date and a time of day, with the distance from universal time in microseconds if known. -/
structure Timestamp where
  year : Nat
  month : Nat
  day : Nat
  hour : Nat
  minute : Nat
  second : Nat
  microsecond : Nat
  offset : Option Int
  deriving Repr, DecidableEq, Inhabited

/-- Why a text is no timestamp. -/
inductive TimestampFault where
  | unreadable (text : Text)
  | offset (found : Int)
  | year (found : Nat)
  | month
  | day
  | hour
  | minute
  | second
  deriving Repr, DecidableEq

/-- How many microseconds a day has. -/
def Timestamp.dayLength : Nat := 86400000000

/-- A length of time in days, seconds and microseconds, of which only the days can be negative.
Parts that are zero are left out, unless all are. -/
def Timestamp.lengthText (micro : Int) : Text :=
  let rest := micro % dayLength
  let part (name : Text) (n : Int) : List Text :=
    if n = 0 then [] else [name ++ "=" ++ Text.integer n]
  let parts := part "days" (micro / dayLength) ++ part "seconds" (rest / 1000000) ++
    part "microseconds" (rest % 1000000)
  "datetime.timedelta(" ++ (if parts.isEmpty then ("0" : Text) else Text.joinWith ", " parts) ++ ")"

def TimestampFault.message : TimestampFault → Text
  | unreadable text => "Invalid isoformat string: " ++ Text.quoted text
  | offset found =>
    "offset must be a timedelta strictly between -timedelta(hours=24) and timedelta(hours=24), " ++
      "not " ++ Timestamp.lengthText found ++ "."
  | year found => "year " ++ Text.integer found ++ " is out of range"
  | month => "month must be in 1..12"
  | day => "day is out of range for month"
  | hour => "hour must be in 0..23"
  | minute => "minute must be in 0..59"
  | second => "second must be in 0..59"

namespace Timestamp

/-- The gap `hours:minutes`, with seconds and microseconds only where they are not zero. -/
def offsetText (offset : Int) : Text :=
  let size := offset.natAbs
  let micro := size % 1000000
  let seconds := size / 1000000
  let sign : Text := if offset < 0 then "-" else "+"
  let tail : Text :=
    if micro ≠ 0 then ":" ++ Text.padded 2 (seconds % 60) ++ "." ++ Text.padded 6 micro
    else if seconds % 60 ≠ 0 then ":" ++ Text.padded 2 (seconds % 60)
    else []
  sign ++ Text.padded 2 (seconds / 3600) ++ ":" ++ Text.padded 2 (seconds / 60 % 60) ++ tail

/-- The extended form. -/
def text (t : Timestamp) : Text :=
  let fraction : Text := if t.microsecond = 0 then [] else "." ++ Text.padded 6 t.microsecond
  Text.padded 4 t.year ++ "-" ++ Text.padded 2 t.month ++ "-" ++ Text.padded 2 t.day ++ "T" ++
    Text.padded 2 t.hour ++ ":" ++ Text.padded 2 t.minute ++ ":" ++ Text.padded 2 t.second ++
    fraction ++ (t.offset.map offsetText).getD []

/-- The year has a 29th of February. -/
def isLeap (year : Nat) : Bool := year % 4 == 0 && (year % 100 != 0 || year % 400 == 0)

def daysIn (year month : Nat) : Nat :=
  if month = 2 then (if isLeap year then 29 else 28)
  else if month ∈ [4, 6, 9, 11] then 30 else 31

/-- The days before the first of January of a year. -/
def daysBeforeYear (year : Nat) : Nat :=
  let y := year - 1
  y * 365 + y / 4 - y / 100 + y / 400

/-- The microseconds of universal time, if the distance from it is known. -/
def instant? (t : Timestamp) : Option Int :=
  let monthDays := (List.range (t.month - 1)).map fun i => daysIn t.year (i + 1)
  let days := daysBeforeYear t.year + monthDays.foldr (· + ·) 0 + t.day
  let seconds := ((days * 24 + t.hour) * 60 + t.minute) * 60 + t.second
  t.offset.map fun offset => (seconds * 1000000 + t.microsecond : Nat) - offset

/-- The calendar date of a day of the year, counted from one, where `months` are left to look at. -/
def dateInYear (year : Nat) : (months month day : Nat) → Nat × Nat × Nat
  | 0, month, day => (year, month, day)
  | months + 1, month, day =>
    if day ≤ daysIn year month then (year, month, day)
    else dateInYear year months (month + 1) (day - daysIn year month)

/-- The calendar date of a week date: week 1 holds the first Thursday, and weeks start on Monday.
The calendar starts with year one, so that a week before it lies in no month. -/
def ofWeek? (year week weekday : Nat) : Option (Nat × Nat × Nat) :=
  let first := daysBeforeYear year + 1
  let firstWeekday := (first + 6) % 7
  let toMonday : Int := if firstWeekday > 3 then 7 - (firstWeekday : Int) else -(firstWeekday : Int)
  let long := firstWeekday = 3 || (firstWeekday = 2 && isLeap year)
  if week = 0 || week > 53 || (week = 53 && !long) || weekday = 0 || weekday > 7 then none
  else if year = 0 then some (1, 0, 0)
  else
    let dayOfYear : Int := 1 + toMonday + (week - 1 : Nat) * 7 + (weekday - 1 : Nat)
    let size : Int := if isLeap year then 366 else 365
    if dayOfYear < 1 then
      let before := year - 1
      some (dateInYear before 11 1 (dayOfYear + (if isLeap before then 366 else 365)).toNat)
    else if dayOfYear > size then some (dateInYear (year + 1) 11 1 (dayOfYear - size).toNat)
    else some (dateInYear year 11 1 dayOfYear.toNat)

def digit? (c : CodePoint) : Option Nat := if c.isDigit then some (c.toNat - '0'.toNat) else none

/-- A number of exactly `n` digits in front of a text. -/
def digits? : (n value : Nat) → Text → Option (Nat × Text)
  | 0, value, s => some (value, s)
  | n + 1, value, c :: s => (digit? c).bind fun d => digits? n (value * 10 + d) s
  | _ + 1, _, [] => none

/-- The text is over: nothing is left of it, or only what a zero character hides. -/
def isOver (s : Text) : Bool := s.head?.all (· = .char '\x00')

/-- The microseconds that the first six digits of a fraction denote, and what follows its digits.
Fewer than six digits must take up the whole text. -/
def fraction? (s : Text) : Option (Nat × Text) :=
  if (s.take 6).all CodePoint.isDigit then
    (digits? 6 0 ((s.take 6 ++ Text.copies 6 '0').take 6)).map fun found =>
      (found.1, (s.drop 6).dropWhile CodePoint.isDigit)
  else none

/-- The parts of a clock, two digits each and up to `n` of them, and the microseconds after the
last. The sign after the first part settles whether colons stand between parts. A fraction may
follow any part. If `lenient`, one plain character after any part and anything after six digits of a
fraction are overlooked; a zero character is in any case. -/
def clockParts? (lenient : Bool) : (n : Nat) → (colons : Option Bool) → Text →
    Option (List Nat × Nat)
  | 0, _, s => do
    let (micro, rest) ← fraction? s
    if lenient || isOver rest then some ([], micro) else none
  | n + 1, colons, s => do
    let (value, s) ← digits? 2 0 s
    match s with
    | [] => some ([value], 0)
    | c :: rest =>
      let colons := colons.getD (c = ':')
      if rest.isEmpty then
        if lenient && c.toNat < 128 || c = '\x00' then some ([value], 0) else none
      else
        let more ←
          if colons && c = ':' then clockParts? lenient n (some colons) rest
          else if c = '.' || c = ',' then clockParts? lenient 0 (some colons) rest
          else if colons then none
          else clockParts? lenient n (some colons) (c :: rest)
        some (value :: more.1, more.2)

/-- A time of day: hour, minute, second and microsecond. Parts that are left out are zero. -/
def time? (lenient : Bool) (s : Text) : Option (Nat × Nat × Nat × Nat) :=
  (clockParts? lenient 3 none s).map fun (parts, micro) =>
    (parts[0]?.getD 0, parts[1]?.getD 0, parts[2]?.getD 0, micro)

/-- A distance from universal time with the sign taken off. Less than a second is none. -/
def zone? (negative : Bool) (s : Text) : Option Int := do
  let (hour, minute, second, micro) ← time? false s
  let seconds := (hour * 60 + minute) * 60 + second
  let size := if seconds = 0 then 0 else seconds * 1000000 + micro
  some (if negative then -(size : Int) else size)

/-- A time of day with an optional distance from universal time. The time is read leniently in front
of such a distance. -/
def zonedTime? (s : Text) : Option ((Nat × Nat × Nat × Nat) × Option Int) :=
  let isMark (c : CodePoint) : Bool := c = '+' || c = '-' || c = 'Z'
  let clock := s.takeWhile (!isMark ·)
  match s.dropWhile (!isMark ·) with
  | [] => (time? false clock).map (·, none)
  | .char 'Z' :: rest => if isOver rest then (time? true clock).map (·, some 0) else none
  | mark :: rest => do
    let time ← time? true clock
    let zone ← zone? (mark = '-') rest
    some (time, some zone)

def dateLength? (s : Text) : Option Nat :=
  let isDigitAt (i : Nat) : Bool := (s[i]?.map CodePoint.isDigit).getD false
  if s.length < 7 then none
  else if s.length = 7 then some 7
  else if s[4]? = some (.char '-') then
    if s[5]? = some (.char 'W') then
      if s[8]? = some (.char '-') then
        if s.length = 9 then none else if isDigitAt 10 then some 8 else some 10
      else some 8
    else some 10
  else if s[4]? = some (.char 'W') then
    let more := ((s.drop 7).takeWhile CodePoint.isDigit).length
    if more < 2 then some (7 + more) else if more % 2 = 1 then some 7 else some 8
  else some 8

def date? (s : Text) : Option (Nat × Nat × Nat) := do
  let (year, s) ← digits? 4 0 s
  let separated := s.head? = some (.char '-')
  let s := if separated then s.drop 1 else s
  let skip (s : Text) : Option Text :=
    if separated then (if s.head? = some (.char '-') then some (s.drop 1) else none) else some s
  match s with
  | .char 'W' :: s =>
    let (week, s) ← digits? 2 0 s
    if s.isEmpty then ofWeek? year week 1
    else
      let (weekday, s) ← digits? 1 0 (← skip s)
      if s.isEmpty then ofWeek? year week weekday else none
  | s =>
    let (month, s) ← digits? 2 0 s
    let (day, s) ← digits? 2 0 (← skip s)
    if s.isEmpty then some (year, month, day) else none

/-- The text with a mark in the place of a half that may stand between date and time: the first of
the halves where the date can end. -/
def withMark (s : Text) : Text :=
  match [7, 8, 10].find? fun i => s[i]?.any CodePoint.isHalf with
  | some i => s.set i 'T'
  | none => s

/-- The parts that a text spells, not yet checked against the calendar. Between date and time stands
any one code point, and nowhere else a half. -/
def parts? (s : Text) : Option Timestamp := do
  let s := withMark s
  if s.any CodePoint.isHalf then none
  let size ← dateLength? s
  let (year, month, day) ← date? (s.take size)
  if s.length ≤ size then some ⟨year, month, day, 0, 0, 0, 0, none⟩
  else
    let ((hour, minute, second, micro), offset) ← zonedTime? (s.drop (size + 1))
    some ⟨year, month, day, hour, minute, second, micro, offset⟩

/-- The timestamp itself, if the calendar has its date and the clock its time. -/
def checked (t : Timestamp) : Except TimestampFault Timestamp :=
  if t.offset.any fun offset => offset.natAbs ≥ dayLength then
    .error (.offset (t.offset.getD 0))
  else if t.year < 1 || t.year > 9999 then .error (.year t.year)
  else if t.month < 1 || t.month > 12 then .error .month
  else if t.day < 1 || t.day > daysIn t.year t.month then .error .day
  else if t.hour > 23 then .error .hour
  else if t.minute > 59 then .error .minute
  else if t.second > 59 then .error .second
  else .ok t

def read (s : Text) : Except TimestampFault Timestamp :=
  match parts? s with
  | none => .error (.unreadable s)
  | some t => t.checked

end Timestamp
end RandomTables
