import RandomTables.Document.Json.Reader

/-!
# Dates in documents

A date is a year, a month and a day with hyphens between them. A time of day may follow it after a
letter or blanks, with a fraction of a second and a distance from universal time.
-/
namespace RandomTables.Yaml

def oneOrTwo? (s : Text) : Option (Nat × Text) :=
  match s with
  | a :: b :: rest =>
    if a.isDigit && b.isDigit then some (Json.plainNumber [a, b], rest)
    else if a.isDigit then some (Json.plainNumber [a], b :: rest)
    else none
  | [a] => if a.isDigit then some (Json.plainNumber [a], []) else none
  | [] => none

/-- A character that has to come next. -/
def expect? (c : CodePoint) : Text → Option Text
  | d :: rest => if c = d then some rest else none
  | [] => none

/-- The distance from universal time at the end of a timestamp. -/
def zone? (s : Text) : Option (Option Int) :=
  match s.dropWhile fun (c : CodePoint) => c == ' ' || c == '\t' with
  | [] => if s.isEmpty then some none else none
  | [.char 'Z'] => some (some 0)
  | sign :: rest => do
    if sign ≠ '-' ∧ sign ≠ '+' then none
    let (hours, rest) ← oneOrTwo? rest
    let minutes ← match rest with
      | [] => some 0
      | .char ':' :: rest => do
        let (minutes, rest) ← Timestamp.digits? 2 0 rest
        if rest.isEmpty then some minutes else none
      | _ => none
    let gap : Int := (hours * 60 + minutes) * 60000000
    some (some (if sign = '-' then -gap else gap))

/-- The parts of a date, or of a date with a time of day, not yet checked against the calendar. -/
def moment? (s : Text) : Option (Timestamp × Bool) := do
  let (year, rest) ← Timestamp.digits? 4 0 s
  let rest ← expect? '-' rest
  let (month, afterMonth) ← oneOrTwo? rest
  let (day, afterDay) ← oneOrTwo? (← expect? '-' afterMonth)
  match afterDay with
  | [] => some (⟨year, month, day, 0, 0, 0, 0, none⟩, false)
  | c :: more =>
    let rest ←
      if c = 'T' ∨ c = 't' then some more
      else if c = ' ' ∨ c = '\t' then some (more.dropWhile fun c => c == ' ' || c == '\t')
      else none
    let (hour, rest) ← oneOrTwo? rest
    let (minute, rest) ← Timestamp.digits? 2 0 (← expect? ':' rest)
    let (second, rest) ← Timestamp.digits? 2 0 (← expect? ':' rest)
    let (fraction, rest) := match rest with
      | .char '.' :: rest => (rest.takeWhile CodePoint.isDigit, rest.dropWhile CodePoint.isDigit)
      | rest => ([], rest)
    let offset ← zone? rest
    let micro := Json.plainNumber ((fraction ++ Text.copies 6 '0').take 6)
    some (⟨year, month, day, hour, minute, second, micro, offset⟩, true)

end RandomTables.Yaml
