import RandomTables.Document.Decoder
import RandomTables.Document.Json.Reader
import RandomTables.Document.Yaml.Reader

/-!
# Decoding files

The suffix of a file says how its text is to be decoded. Suffixes are compared in small letters.
Binary data, sets, ordered maps and lists of pairs are not read from YAML, and neither are nodes that
hold themselves.
-/
namespace RandomTables

namespace Document

/-- The value of a text in the format of a suffix. -/
def decode (text suffix : Text) : Except DecodeFault Document :=
  let suffix := Text.lower suffix
  if suffix = ".yml" || suffix = ".yaml" then
    match Yaml.read text with
    | .ok d => .ok d
    | .error .unreadable => .error (.unreadable suffix)
    | .error (.scalar fault) => .error (.scalar fault)
  else if suffix = ".json" then
    match Json.read? text with
    | some d => .ok d
    | none => .error (.unreadable suffix)
  else .error (.unsupported suffix)

end Document

/-- Outside of proofs files are decoded in the two formats. -/
instance : Decoder := ⟨Document.decode⟩

end RandomTables
