import RandomTables.Text.CaseTable
import RandomTables.Text.Range

/-!
# Letter case

Whole texts in small letters, in capitals, and with a capital at the start of every word. A letter
may turn into several. The capital sigma at the end of a word has a small form of its own: it is
final when a cased letter precedes it and none follows it, marks in between not counted.
-/
namespace RandomTables.Text

def CaseRun.holds (run : CaseRun) (n : Nat) : Bool :=
  run.first ≤ n && n ≤ run.last && (n - run.first) % run.step == 0

/-- The counterpart of a character by its expansions first and its runs second; a character that
neither lists stays as it is. -/
def mapCase (runs : Array CaseRun) (expansions : Array (Nat × List Nat)) (c : CodePoint) : Text :=
  match expansions.find? fun e => e.1 == c.toNat with
  | some e => e.2.map .ofNat
  | none =>
    match runs.find? fun run => run.holds c.toNat with
    | some run => [.ofNat ((c.toNat : Int) + run.shift).toNat]
    | none => [c]

def lowerChar (c : CodePoint) : Text := mapCase lowerRuns lowerExpansions c

def upperChar (c : CodePoint) : Text := mapCase upperRuns upperExpansions c

def titleChar (c : CodePoint) : Text := mapCase titleRuns titleExpansions c

/-- A letter that has a case. -/
def isCased (c : CodePoint) : Bool := inRanges casedRanges c

/-- A mark that is passed over when one looks for a cased letter. -/
def isCaseIgnorable (c : CodePoint) : Bool := inRanges caseIgnorableRanges c

/-- The first character that is not passed over is a cased letter. -/
def meetsCased (s : Text) : Bool :=
  match s.dropWhile isCaseIgnorable with
  | [] => false
  | c :: _ => isCased c

/-- The small form of `c` between the characters before it, nearest first, and those after it. -/
def lowerAt (before : Text) (c : CodePoint) (after : Text) : Text :=
  if c = 'Σ' then
    if meetsCased before && !meetsCased after then ['ς'] else ['σ']
  else lowerChar c

/-- Small letters for a text that follows the characters `before`. -/
def lowerFrom (before : Text) : Text → Text
  | [] => []
  | c :: rest => lowerAt before c rest ++ lowerFrom (c :: before) rest

def lower (s : Text) : Text := lowerFrom [] s

def upper (s : Text) : Text := s.flatMap upperChar

/-- Title case for a text that follows the characters `before`: a letter right after a cased one is
small, any other takes the form it has at the start of a word. -/
def titleFrom (before : Text) : Text → Text
  | [] => []
  | c :: rest =>
    let form :=
      match before with
      | [] => titleChar c
      | b :: _ => if isCased b then lowerAt before c rest else titleChar c
    form ++ titleFrom (c :: before) rest

/-- The text with a capital at the start of every word. -/
def title (s : Text) : Text := titleFrom [] s

/-- The text with its first character in capitals and the rest as it is. -/
def capitalize : Text → Text
  | [] => []
  | c :: rest => upperChar c ++ rest

end RandomTables.Text
