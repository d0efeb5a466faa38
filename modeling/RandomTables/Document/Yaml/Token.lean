import RandomTables.Document.Yaml.Block
import RandomTables.Document.Yaml.Property
import RandomTables.Document.Yaml.Quoted

/-!
# Tokens

A text is cut into scalars, properties, indicators, and marks for the starts and ends of blocks.
Blocks start and end by indentation. A colon makes the token before it a key, so the place of every
token that may turn out to be one is remembered: it has to be on one line with its colon, not too
far away, and the tokens that open its block are put in front of it afterwards.
-/
namespace RandomTables.Yaml

/-- A piece of a document. A broken one is a scalar that names a code point beyond the last one;
nothing can be read after it. -/
inductive Token where
  | documentStart
  | documentEnd
  | directive (found : Directive)
  | streamEnd
  | listOpen
  | listClose
  | mapOpen
  | mapClose
  | comma
  | blockList
  | blockMap
  | blockEnd
  | entry
  | key
  | value
  | anchor (name : Text)
  | aliasOf (name : Text)
  | tag (found : WrittenTag)
  | scalar (text : Text) (plain : Bool)
  | broken (point : Nat)
  deriving Repr, DecidableEq, Inhabited

/-- A token that a colon would make a key. -/
structure Candidate where
  number : Nat
  required : Bool
  index : Nat
  line : Nat
  column : Nat
  deriving Repr

/-- What is known while a text is cut into tokens. Candidates are kept for the current nesting of
brackets first and for the outer ones after it. -/
structure Lexer where
  cursor : Cursor
  tokens : Array Token
  nesting : Nat
  indent : Int
  outerIndents : List Int
  keyAllowed : Bool
  candidates : List (Option Candidate)

namespace Lexer

/-- Nothing has been read. -/
def start (s : Text) : Lexer := ⟨.start s, #[], 0, -1, [], true, [none]⟩

/-- Inside brackets, where indentation means nothing. -/
def inFlow (l : Lexer) : Bool := l.nesting != 0

def push (l : Lexer) (t : Token) : Lexer := { l with tokens := l.tokens.push t }

/-- Go on from another place. -/
def moveTo (l : Lexer) (c : Cursor) : Lexer := { l with cursor := c }

/-- End the blocks that are indented further than a column. -/
def unwind (l : Lexer) (column : Int) : (tries : Nat) → Lexer
  | 0 => l
  | tries + 1 =>
    if l.inFlow || l.indent ≤ column then l
    else
      match l.outerIndents with
      | [] => l
      | indent :: outer =>
        unwind { l.push .blockEnd with indent := indent, outerIndents := outer } column tries

/-- End every block that is indented further than a column. -/
def unwindTo (l : Lexer) (column : Int) : Lexer := l.unwind column (l.outerIndents.length + 1)

/-- Start a block at a column, if that is further in. -/
def indentTo (l : Lexer) (column : Nat) : Lexer × Bool :=
  if l.indent < column then
    ({ l with indent := column, outerIndents := l.indent :: l.outerIndents }, true)
  else (l, false)

def candidate? (l : Lexer) : Option Candidate := (l.candidates.head?).join

/-- Put a candidate, or none, in the place at the current nesting. -/
def setCandidate (l : Lexer) (c : Option Candidate) : Lexer :=
  { l with candidates := c :: l.candidates.drop 1 }

/-- Give up the candidate at the current nesting, unless it has to be a key. -/
def dropCandidate? (l : Lexer) : Option Lexer :=
  match l.candidate? with
  | some c => if c.required then none else some (l.setCandidate none)
  | none => some l

/-- The candidate can no longer become a key. -/
def isStale (l : Lexer) (c : Candidate) : Bool :=
  c.line != l.cursor.line || l.cursor.index > c.index + 1024

/-- Give up the candidates that can no longer become keys, unless one of them has to be a key. -/
def dropStale? (l : Lexer) : Option Lexer :=
  let stale (c : Option Candidate) : Bool := c.any l.isStale
  if l.candidates.any fun c => stale c && c.any (·.required) then none
  else some { l with candidates := l.candidates.map fun c => if stale c then none else c }

/-- The number of tokens that stay as they are, whatever comes next: those before the first that
may still become a key. -/
def settled (l : Lexer) : Nat :=
  (l.candidates.filterMap fun c => c.filter (!l.isStale ·)).foldl (fun n c => min n c.number)
    l.tokens.size

/-- Remember the next token as a candidate, if a key may stand here. -/
def saveCandidate? (l : Lexer) : Option Lexer :=
  if l.keyAllowed then do
    let l ← l.dropCandidate?
    let c := l.cursor
    some (l.setCandidate (some ⟨l.tokens.size, !l.inFlow && l.indent = c.column, c.index, c.line,
      c.column⟩))
  else some l

def skipToToken (l : Lexer) : (tries : Nat) → Lexer
  | 0 => l
  | tries + 1 =>
    let c := (l.cursor.dropWhile (· == ' ')).skipComment
    match c.lineBreak? with
    | none => l.moveTo c
    | some (_, c) =>
      skipToToken { l.moveTo c with keyAllowed := l.keyAllowed || !l.inFlow } tries

/-- A token that needs no place of its own: one character. -/
def indicator (l : Lexer) (t : Token) : Lexer := (l.push t).moveTo l.cursor.next

/-- A line of three hyphens or points. -/
def documentMark? (l : Lexer) (t : Token) : Option Lexer := do
  let l ← (l.unwindTo (-1)).dropCandidate?
  some { (l.push t).moveTo (l.cursor.skip 3) with keyAllowed := false }

def directive? (l : Lexer) : Option Lexer := do
  let l ← (l.unwindTo (-1)).dropCandidate?
  let (found, c) ← l.cursor.directive?
  some { (l.push (.directive found)).moveTo c with keyAllowed := false }

/-- What may stand in front of a node, or names one: a key may start with it. -/
def property? (l : Lexer) (token : α → Token) (found : Option (α × Cursor)) : Option Lexer := do
  let l ← l.saveCandidate?
  let (name, c) ← found
  some { (l.push (token name)).moveTo c with keyAllowed := false }

def open? (l : Lexer) (t : Token) : Option Lexer := do
  let l ← l.saveCandidate?
  some { l.indicator t with
    nesting := l.nesting + 1
    keyAllowed := true
    candidates := none :: l.candidates }

/-- A closing bracket. -/
def close? (l : Lexer) (t : Token) : Option Lexer := do
  if l.nesting = 0 then none
  let l ← l.dropCandidate?
  some { l.indicator t with
    nesting := l.nesting - 1
    keyAllowed := false
    candidates := l.candidates.drop 1 }

def comma? (l : Lexer) : Option Lexer := do
  let l ← { l with keyAllowed := true }.dropCandidate?
  some (l.indicator .comma)

/-- A hyphen or question mark that starts an entry; outside brackets it may open a block. -/
def starter? (l : Lexer) (opener t : Token) (allowedAfter : Bool) : Option Lexer := do
  if !l.inFlow && !l.keyAllowed then none
  let l := if l.inFlow then l else
    match l.indentTo l.cursor.column with
    | (l, true) => l.push opener
    | (l, false) => l
  let l ← { l with keyAllowed := allowedAfter }.dropCandidate?
  some (l.indicator t)

/-- A colon: it makes the candidate a key, or stands for itself where a key might start. -/
def colon? (l : Lexer) : Option Lexer :=
  match l.candidate? with
  | some c =>
    let l := l.setCandidate none
    let l := { l with tokens := l.tokens.insertIdxIfInBounds c.number .key, keyAllowed := false }
    let l := if l.inFlow then l else
      match l.indentTo c.column with
      | (l, true) => { l with tokens := l.tokens.insertIdxIfInBounds c.number .blockMap }
      | (l, false) => l
    some (l.indicator .value)
  | none => l.starter? .blockMap .value (!l.inFlow)

def block? (l : Lexer) (folded : Bool) : Option Lexer := do
  let l ← { l with keyAllowed := true }.dropCandidate?
  let (text, c) ← blockScalar? folded l.indent l.cursor
  some ((l.push (.scalar text false)).moveTo c)

def quoted? (l : Lexer) (double : Bool) : Option Lexer := do
  let l ← l.saveCandidate?
  let (points, c) ← quotedScalar? double l.cursor
  let token : Token := match points.find? (!isCodePoint ·) with
    | some n => .broken n
    | none => .scalar (points.map .ofNat) false
  some { (l.push token).moveTo c with keyAllowed := false }

/-- The characters of a plain scalar up to a gap or an indicator that ends it. -/
def plainRun (flow : Bool) : Text → Text
  | [] => []
  | c :: rest =>
    let endsColon := match rest with
      | [] => true
      | d :: _ => isGap d || (flow && Text.holds ",[]\x7b\x7d" d)
    if isGap c || (c == ':' && endsColon) || (flow && Text.holds ",?[]\x7b\x7d" c) then []
    else c :: plainRun flow rest

/-- The spaces and ends of lines after the first end of a line in a plain scalar; the last part
tells whether a document starts or ends here. -/
def plainBreaks : (tries : Nat) → Cursor → Text × Cursor × Bool
  | 0, c => ([], c, false)
  | tries + 1, c =>
    match c.lineBreak? with
    | some (ch, c) =>
      if c.atSeparator then ([ch], c, true)
      else
        let (breaks, c, separated) := plainBreaks tries c
        (ch :: breaks, c, separated)
    | none => if c.rest.head? = some (.char ' ') then plainBreaks tries c.next else ([], c, false)

/-- The folded gap after a run of a plain scalar, which is empty where the scalar ends; the last
part tells whether the gap goes over the end of a line. -/
def plainGap (c : Cursor) : Text × Cursor × Bool :=
  let (spaces, c) := c.takeWhile (· == ' ')
  match c.lineBreak? with
  | none => (spaces, c, false)
  | some (ch, c) =>
    if c.atSeparator then ([], c, true)
    else
      let (breaks, c, separated) := plainBreaks (c.rest.length + 1) c
      if separated then ([], c, true)
      else
        let gap : Text := if ch ≠ '\n' then [ch] else if breaks.isEmpty then [' '] else []
        (gap ++ breaks, c, true)

/-- The text of a plain scalar after the gap `gap`, the place after it, and whether a key may start
there. -/
def plainText (flow : Bool) (least : Int) :
    (tries : Nat) → (gap : Text) → (keyAllowed : Bool) → Cursor → Text × Cursor × Bool
  | 0, _, keyAllowed, c => ([], c, keyAllowed)
  | tries + 1, gap, keyAllowed, c =>
    let run := if c.rest.head? = some (.char '#') then [] else plainRun flow c.rest
    if run.isEmpty then ([], c, keyAllowed)
    else
      let (next, after, overLine) := plainGap (c.skip run.length)
      if next.isEmpty || after.rest.head? = some (.char '#') || (!flow && after.column < least) then
        (gap ++ run, after, overLine)
      else
        let (text, after, keyAllowed) := plainText flow least tries next overLine after
        (gap ++ run ++ text, after, keyAllowed)

def plain? (l : Lexer) : Option Lexer := do
  let l ← l.saveCandidate?
  let c := l.cursor
  let (text, c, keyAllowed) := plainText l.inFlow (l.indent + 1) (c.rest.length + 1) [] false c
  some { (l.push (.scalar text true)).moveTo c with keyAllowed := keyAllowed }

def startsPlain (flow : Bool) : Text → Bool
  | [] => false
  | c :: rest =>
    !(isGap c || Text.holds "-?:,[]\x7b\x7d#&*!|>\x27\x22%@\x60" c) ||
      (!atGap rest && (c == '-' || (!flow && (c == '?' || c == ':'))))

def tokenAt? (l : Lexer) (c : CodePoint) (rest : Text) : Option Lexer :=
  let first := l.cursor.column = 0
  if c == '%' && first then l.directive?
  else if first && l.cursor.atMark '-' then l.documentMark? .documentStart
  else if first && l.cursor.atMark '.' then l.documentMark? .documentEnd
  else if c == '[' then l.open? .listOpen
  else if c == '\x7b' then l.open? .mapOpen
  else if c == ']' then l.close? .listClose
  else if c == '\x7d' then l.close? .mapClose
  else if c == ',' then l.comma?
  else if c == '-' && atGap rest then l.starter? .blockList .entry true
  else if c == '?' && (l.inFlow || atGap rest) then l.starter? .blockMap .key (!l.inFlow)
  else if c == ':' && (l.inFlow || atGap rest) then l.colon?
  else if c == '*' then l.property? .aliasOf l.cursor.anchorName?
  else if c == '&' then l.property? .anchor l.cursor.anchorName?
  else if c == '!' then l.property? .tag l.cursor.tag?
  else if c == '|' && !l.inFlow then l.block? false
  else if c == '>' && !l.inFlow then l.block? true
  else if c == '\x27' then l.quoted? false
  else if c == '\x22' then l.quoted? true
  else if startsPlain l.inFlow (c :: rest) then l.plain?
  else none

/-- All tokens, once those from here on have been read. A broken one is the last, and of those
before it the settled ones remain. -/
def run? (l : Lexer) : (tries : Nat) → Option (Array Token)
  | 0 => none
  | tries + 1 => do
    let settled := l.settled
    let l ← (l.skipToToken (l.cursor.rest.length + 1)).dropStale?
    let l := l.unwindTo l.cursor.column
    match l.cursor.rest with
    | [] =>
      let l ← (l.unwindTo (-1)).dropCandidate?
      some (l.tokens.push .streamEnd)
    | c :: rest =>
      let l ← l.tokenAt? c rest
      match l.tokens.back? with
      | some (.broken n) => some ((l.tokens.take settled).push (.broken n))
      | _ => l.run? tries

end Lexer

/-- A character that a text may hold. -/
def isAllowed (c : CodePoint) : Bool :=
  let n := c.toNat
  n == 9 || n == 10 || n == 13 || (0x20 ≤ n && n ≤ 0x7e) || n == 0x85 || (0xa0 ≤ n && n ≤ 0xd7ff) ||
    (0xe000 ≤ n && n ≤ 0xfffd) || 0x10000 ≤ n

/-- The tokens of a text. A byte order mark at its start does not count. -/
def tokens? (s : Text) : Option (List Token) :=
  if !s.all isAllowed then none
  else
    let l := Lexer.start s
    let l := if s.head? = some byteOrderMark then l.moveTo l.cursor.next else l
    (l.run? (s.length + 2)).map Array.toList

end RandomTables.Yaml
