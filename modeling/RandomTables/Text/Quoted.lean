import RandomTables.Text.Range
import RandomTables.Text.UnprintableTable

/-!
# Quoted text

A text in a message stands between quotes. Single quotes are taken unless the text holds one and
holds no double quote; the quote in use and the backslash get a backslash in front; line feed,
carriage return and tab have short forms; every other unprintable character is written by its code
point in two, four or eight hexadecimal digits.
-/
namespace RandomTables.Text

/-- A character that may stand in a message as it is. -/
def isPrintable (c : CodePoint) : Bool :=
  if c.toNat < 128 then 32 ≤ c.toNat && c.toNat < 127 else !inRanges unprintableRanges c

/-- A number in hexadecimal digits, filled up with zeros to a width. -/
def hex (width n : Nat) : Text :=
  let text := ofChars (Nat.toDigits 16 n)
  copies (width - text.length) '0' ++ text

/-- How one character stands between quotes `quote`. -/
def escapeChar (quote c : CodePoint) : Text :=
  if c = quote || c = '\\' then ['\\', c]
  else if c = '\n' then ['\\', 'n']
  else if c = '\r' then ['\\', 'r']
  else if c = '\t' then ['\\', 't']
  else if isPrintable c then [c]
  else if c.toNat < 0x100 then "\\x" ++ hex 2 c.toNat
  else if c.toNat < 0x10000 then "\\u" ++ hex 4 c.toNat
  else "\\U" ++ hex 8 c.toNat

/-- The quote that a text is written with. -/
def quoteFor (s : Text) : CodePoint :=
  if s.contains '\x27' && !s.contains '\x22' then '\x22' else '\x27'

def quoted (s : Text) : Text :=
  let quote := quoteFor s
  quote :: s.flatMap (escapeChar quote) ++ [quote]

end RandomTables.Text
