import RandomTables.Document.Json.Printer
import RandomTables.Document.Json.Reader
import RandomTables.RunLog.Basic

/-!
# Loading a saved log

A saved log replaces the one at hand step by step: the log is emptied, then the start, the seed and
the counter are taken over, then the events one after another. Loading stops at the first thing
that is missing or unreadable, and what was taken over until then stays. A file that is no JSON
leaves the log alone.
-/
namespace RandomTables

/-- Why a saved log cannot be loaded any further. Something without fields is told apart from what
is misshapen in any other way. -/
inductive LoadFault where
  | missing (key : Text)
  | timestamp (fault : TimestampFault)
  | unknownKind (found : Document)
  | misshapen (what : Text)
  | fieldless (what : Text)
  deriving Repr

def LoadFault.message : LoadFault → Text
  | missing key => Text.quoted key
  | timestamp fault => fault.message
  | unknownKind found => found.literal ++ " is not a valid EventType"
  | misshapen what => what ++ " has the wrong shape"
  | fieldless what => what ++ " has no fields"

namespace SavedLog

/-- The entries of a map. -/
def fieldsOf (what : Text) : Document → Except LoadFault (List (Scalar × Document))
  | .map entries => .ok entries
  | _ => .error (.misshapen what)

/-- A field that must be there. -/
def need (entries : List (Scalar × Document)) (key : Text) : Except LoadFault Document :=
  match Document.entry? entries key with
  | some value => .ok value
  | none => .error (.missing key)

/-- A field, or the default if it is absent. -/
def field (entries : List (Scalar × Document)) (key : Text) (absent : Document) : Document :=
  (Document.entry? entries key).getD absent

def partsOf (entries : List (Scalar × Document)) (key : Text) :
    Except LoadFault (List Document) :=
  match (field entries key (.list [])).parts? with
  | some parts => .ok parts
  | none => .error (.misshapen key)

def string? : Document → Option Text
  | .scalar (.text s) => some s
  | _ => none

/-- A timestamp that must be there. -/
def stampOf (entries : List (Scalar × Document)) (key : Text) : Except LoadFault Timestamp := do
  match string? (← need entries key) with
  | none => .error (.misshapen key)
  | some s =>
    match Timestamp.read s with
    | .ok t => .ok t
    | .error fault => .error (.timestamp fault)

/-- The kind that a saved event names. -/
def kindOf (entries : List (Scalar × Document)) : Except LoadFault EventKind := do
  let found ← need entries "event_type"
  match (string? found).bind EventKind.ofName? with
  | some kind => .ok kind
  | none => .error (.unknownKind found)

/-- What an event of a kind records, absent fields being empty or zero. -/
def bodyOf (entries : List (Scalar × Document)) : EventKind → SavedBody
  | .roll =>
    .roll (field entries "notation" (.text "")) (field entries "rolls" (.list []))
      (field entries "total" (.int 0)) (field entries "reason" (.text ""))
  | .lookup =>
    .lookup (field entries "table_path" (.text "")) (field entries "table_title" (.text ""))
      (field entries "roll_total" (.int 0)) (field entries "result_text" (.text ""))
      (field entries "depth" (.int 0))
  | .reroll =>
    .reroll (field entries "index_path" (.list [])) (field entries "target_path" (.text ""))
      (field entries "kind" (.text ""))
  | .custom => .custom

def eventOf (saved : Document) : Except LoadFault SavedEvent := do
  let entries ← fieldsOf "event" saved
  let kind ← kindOf entries
  let stamp ← stampOf entries "timestamp"
  .ok ⟨field entries "sequence_number" (.int 0), stamp, field entries "context" (.map []),
    bodyOf entries kind⟩

/-- Take over saved events until one cannot be read. -/
def takeEvents (log : SavedLog) : List Document → SavedLog × Option LoadFault
  | [] => (log, none)
  | saved :: rest =>
    match eventOf saved with
    | .ok e => takeEvents { log with events := log.events.push e } rest
    | .error fault => (log, some fault)

/-- The log after loading a saved one at the time `now`, with the fault that stopped it if there
was one. -/
def load (now : Timestamp) (saved : Document) : SavedLog × Option LoadFault :=
  let log := empty now
  match fieldsOf "log" saved with
  | .error fault => (log, some fault)
  | .ok entries =>
    match stampOf entries "session_start" with
    | .error fault => (log, some fault)
    | .ok start =>
      let log := ⟨start, field entries "seed" .null, field entries "sequence" (.int 0), #[]⟩
      match partsOf entries "events" with
      | .error fault => (log, some fault)
      | .ok items => takeEvents log items

def save (log : SavedLog) : Text := Json.print (some 2) log.toDocument

end SavedLog

/-- Why a file cannot be loaded, or not any further. -/
inductive FileFault where
  | noJson
  | content (fault : LoadFault)
  deriving Repr

def FileFault.message : FileFault → Text
  | noJson => "the file holds no JSON"
  | content fault => fault.message

/-- The log after loading the text of a file at the time `now`. -/
def SavedLog.loadText (now : Timestamp) (text : Text) (log : SavedLog) :
    SavedLog × Option FileFault :=
  match Json.read? text with
  | none => (log, some .noJson)
  | some saved =>
    let (log, fault) := load now saved
    (log, fault.map .content)

end RandomTables
