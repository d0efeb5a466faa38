import RandomTables.Document.Basic

/-!
# Reading JSON

The values of RFC 8259, and the three names for numbers that are none or not finite. A number with
neither point nor exponent is whole and exact, any other is a double. Of equal keys the last counts.
-/
namespace RandomTables.Json

/-- The characters between values. -/
def skipSpace (s : Text) : Text :=
  s.dropWhile fun c => c == ' ' || c == '\t' || c == '\n' || c == '\r'

def hexDigit? (c : CodePoint) : Option Nat :=
  if c.within '0' '9' then some (c.toNat - '0'.toNat)
  else if c.within 'a' 'f' then some (c.toNat - 'a'.toNat + 10)
  else if c.within 'A' 'F' then some (c.toNat - 'A'.toNat + 10)
  else none

def hexNumber? (s : Text) : Option Nat :=
  s.foldlM (fun n c => (hexDigit? c).map (n * 16 + ·)) 0

def shortEscape? : CodePoint → Option CodePoint
  | .char '\x22' => some '\x22'
  | .char '\\' => some '\\'
  | .char '/' => some '/'
  | .char 'b' => some '\x08'
  | .char 'f' => some '\x0c'
  | .char 'n' => some '\n'
  | .char 'r' => some '\r'
  | .char 't' => some '\t'
  | _ => none

/-- A code unit of a string: a code point as it stands there, or the number of an escape. -/
inductive CodeUnit where
  | plain (c : CodePoint)
  | escaped (n : Nat)

/-- The code units of a string up to its closing quote, and what follows the quote. -/
def stringUnits? : Text → Option (List CodeUnit × Text)
  | [] => none
  | .char '\x22' :: rest => some ([], rest)
  | .char '\\' :: .char 'u' :: a :: b :: c :: d :: rest => do
    let unit ← hexNumber? [a, b, c, d]
    let (units, rest) ← stringUnits? rest
    some (.escaped unit :: units, rest)
  | .char '\\' :: c :: rest => do
    let c ← shortEscape? c
    let (units, rest) ← stringUnits? rest
    some (.plain c :: units, rest)
  | c :: rest =>
    if c.toNat < 0x20 then none
    else do
      let (units, rest) ← stringUnits? rest
      some (.plain c :: units, rest)

/-- The text of code units: the escapes of a high and a low half side by side are one character. -/
def joinUnits : List CodeUnit → Text
  | [] => []
  | .plain c :: rest => c :: joinUnits rest
  | .escaped high :: .escaped low :: rest =>
    if 0xD800 ≤ high ∧ high < 0xDC00 ∧ 0xDC00 ≤ low ∧ low < 0xE000 then
      .ofNat (0x10000 + (high - 0xD800) * 0x400 + (low - 0xDC00)) :: joinUnits rest
    else .ofNat high :: joinUnits (.escaped low :: rest)
  | .escaped n :: rest => .ofNat n :: joinUnits rest

def string? (s : Text) : Option (Text × Text) :=
  (stringUnits? s).map fun p => (joinUnits p.1, p.2)

def plainNumber (s : Text) : Nat := s.foldl (fun n c => n * 10 + (c.toNat - '0'.toNat)) 0

/-- The digits after a point, if the text is a point and digits. -/
def fraction (s : Text) : Text × Text :=
  match s with
  | .char '.' :: rest =>
    let digits := rest.takeWhile CodePoint.isDigit
    if digits.isEmpty then ([], s) else (digits, rest.dropWhile CodePoint.isDigit)
  | _ => ([], s)

/-- An exponent with its digits, if the text starts with one. -/
def exponent? (s : Text) : Option (Int × Text) :=
  match s with
  | c :: rest =>
    if c ≠ 'e' ∧ c ≠ 'E' then none
    else
      let (negative, rest) := match rest with
        | .char '-' :: more => (true, more)
        | .char '+' :: more => (false, more)
        | more => (false, more)
      let digits := rest.takeWhile CodePoint.isDigit
      if digits.isEmpty then none
      else
        let n : Int := plainNumber digits
        some (if negative then -n else n, rest.dropWhile CodePoint.isDigit)
  | [] => none

def number? (negative : Bool) (s : Text) : Option (Document × Text) :=
  let run := s.takeWhile CodePoint.isDigit
  let whole := if run.head? = some (.char '0') then run.take 1 else run
  if whole.isEmpty then none
  else
    let rest := s.drop whole.length
    let (decimals, rest) := fraction rest
    match exponent? rest with
    | none =>
      if decimals.isEmpty then
        let n : Int := plainNumber whole
        some (.int (if negative then -n else n), rest)
      else
        let d := Double.ofDecimal negative (plainNumber (whole ++ decimals)) (-decimals.length)
        some (.scalar (.float d), rest)
    | some (power, rest) =>
      let d := Double.ofDecimal negative (plainNumber (whole ++ decimals)) (power - decimals.length)
      some (.scalar (.float d), rest)

def after? (word s : Text) : Option Text :=
  if word.isPrefixOf s then some (s.drop word.length) else none

/-- A value that is written as a word or a number. -/
def atom? (s : Text) : Option (Document × Text) :=
  let words : List (Text × Scalar) :=
    [("null", .null), ("true", .bool true), ("false", .bool false), ("NaN", .float .nan),
      ("Infinity", .float (.infinite false)), ("-Infinity", .float (.infinite true))]
  match words.findSome? fun w => (after? w.1 s).map fun rest => (Document.scalar w.2, rest) with
  | some found => some found
  | none =>
    match s with
    | .char '-' :: rest => number? true rest
    | rest => number? false rest

mutual

/-- A value and what follows it. A value is never nested deeper than the text is long, so `depth`
is set to that length. -/
def value? (depth : Nat) (s : Text) : Option (Document × Text) :=
  match depth, s with
  | 0, _ => none
  | _ + 1, .char '\x22' :: rest => (string? rest).map fun p => (.text p.1, p.2)
  | depth + 1, .char '[' :: rest =>
    match skipSpace rest with
    | .char ']' :: rest => some (.list [], rest)
    | rest => (items? depth rest).map fun p => (.list p.1, p.2)
  | depth + 1, .char '\x7b' :: rest =>
    match skipSpace rest with
    | .char '\x7d' :: rest => some (.map [], rest)
    | rest => (members? depth rest).map fun p => (.ofEntries p.1, p.2)
  | _ + 1, s => atom? s

def items? (depth : Nat) (s : Text) : Option (List Document × Text) :=
  match depth with
  | 0 => none
  | depth + 1 => do
    let (item, rest) ← value? depth s
    match skipSpace rest with
    | .char ']' :: rest => some ([item], rest)
    | .char ',' :: rest =>
      let (items, rest) ← items? depth (skipSpace rest)
      some (item :: items, rest)
    | _ => none

def members? (depth : Nat) (s : Text) : Option (List (Scalar × Document) × Text) :=
  match depth, s with
  | depth + 1, .char '\x22' :: s => do
    let (key, rest) ← string? s
    match skipSpace rest with
    | .char ':' :: rest =>
      let (value, rest) ← value? depth (skipSpace rest)
      match skipSpace rest with
      | .char '\x7d' :: rest => some ([(.text key, value)], rest)
      | .char ',' :: rest =>
        let (members, rest) ← members? depth (skipSpace rest)
        some ((.text key, value) :: members, rest)
      | _ => none
    | _ => none
  | _, _ => none

end

/-- The value of a whole text. -/
def read? (s : Text) : Option Document := do
  let (value, rest) ← value? (s.length + 1) (skipSpace s)
  if (skipSpace rest).isEmpty then some value else none

end RandomTables.Json
