import RandomTables.Template.Component

/-!
# Faults in templates

What can be wrong with a template or a row line, and its wording.
-/
namespace RandomTables

/-- What is wrong with a template or a row line. -/
inductive TemplateFault where
  | openMarker (double : Bool)
  | valueName (found : Text)
  | missingColon (name : Text)
  | dice (fault : Dice.Fault)
  | option (fault : OptionFault)
  | chance (found : Nat)
  | unrecognised (body : Text)
  | inputKey (found : Text)
  | modifier (found key : Text)
  | unknownModifier (found key : Text)
  | transform (found : Text)
  | noPath
  | emptyRange (low high : Nat)
  | inRow (row : Nat) (fault : TemplateFault)
  deriving Repr, Inhabited

def TemplateFault.message : TemplateFault → Text
  | openMarker double => "unterminated " ++ (if double then "[[" else "[") ++ " marker"
  | valueName found => "invalid computed value name " ++ Text.quoted found
  | missingColon name => "expected ':' after @" ++ name
  | dice fault => fault.message
  | option fault => fault.message
  | chance found => "percent chance " ++ Text.integer found ++ " exceeds 100"
  | unrecognised body => "unrecognised marker [[" ++ body ++ "]]"
  | inputKey found => "invalid input key " ++ Text.quoted found
  | modifier found key =>
    "invalid modifier " ++ Text.quoted found ++ " for [" ++ key ++ "]"
  | unknownModifier found key =>
    "unknown modifier " ++ Text.quoted found ++ " for [" ++ key ++ "]"
  | transform found => "unknown text transform " ++ Text.quoted found
  | noPath => "reference has no path"
  | emptyRange low high =>
    "row range " ++ Text.integer low ++ "-" ++ Text.integer high ++ " is empty"
  | inRow row fault => "row " ++ Text.integer row ++ ": " ++ fault.message

/-- Why a text is no template: a fault at a position, or a run of digit signs that denotes no
number. -/
inductive TemplateError where
  | malformed (position : Int) (fault : TemplateFault)
  | numeral (run : Text)
  deriving Repr, Inhabited

def TemplateError.message : TemplateError → Text
  | malformed position fault => Dice.atPosition fault.message position
  | numeral run => Dice.numeralMessage run

end RandomTables
