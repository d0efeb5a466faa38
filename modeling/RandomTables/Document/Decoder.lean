import RandomTables.Document.Basic
import RandomTables.Document.Yaml.Scalar

/-!
# Decoders

Loading definitions depends on how the texts of files are decoded, but not on any one format: what is
loaded is told for whatever decoder there is.
-/
namespace RandomTables

/-- Why a text cannot be decoded. -/
inductive DecodeFault where
  | unreadable (suffix : Text)
  | unsupported (suffix : Text)
  | scalar (fault : Yaml.ScalarFault)
  deriving Repr, Inhabited

/-- The fault is of a graver kind than a text that cannot be read. -/
def DecodeFault.isGrave : DecodeFault → Bool
  | scalar fault => fault.isGrave
  | _ => false

def DecodeFault.message : DecodeFault → Text
  | unreadable suffix => "Failed to decode " ++ suffix ++ " document"
  | unsupported suffix =>
    "Unsupported file format: " ++ suffix ++ ". Use .yml, .yaml or .json"
  | scalar fault => fault.message

/-- How the text of a file is decoded, given the suffix of its name. -/
class Decoder where
  decode (text suffix : Text) : Except DecodeFault Document

end RandomTables
