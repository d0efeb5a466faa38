import RandomTables.Template.Marker

/-!
# Reading templates

Plain text runs up to the next marker; a backslash before a bracket or another backslash stands for
that character itself. Reading stops at the end of the line. Every position counts from where the
line starts in its source, so that a fault inside a block points into the line it was written on.
-/
namespace RandomTables.Template

/-- Plain text, held in reverse, as a component; no component for no text. -/
def flush (plain : Text) : List Component :=
  if plain.isEmpty then [] else [.plain plain.reverse]

/-- A character that a backslash can stand in front of. -/
def isEscapable (c : CodePoint) : Bool := c == '[' || c == ']' || c == '\\'

/-- The components of a text that starts at `position` and is preceded by plain text, which is held
in reverse. -/
def components (position : Int) (plain s : Text) :
    Except TemplateError (List Component) :=
  match s with
  | [] => .ok (flush plain)
  | .char '\n' :: _ => .ok (flush plain)
  | .char '\\' :: c :: rest =>
    if isEscapable c then components (position + 2) (c :: plain) rest
    else components (position + 1) ('\\' :: plain) (c :: rest)
  | .char '[' :: .char '[' :: rest =>
    match h : takeBody true [] rest with
    | none => .error (.malformed position (.openMarker true))
    | some (body, after) =>
      have := takeBody_length h
      match doubleMarker (position + 2) body with
      | .error e => .error e
      | .ok (.component c) =>
        (components (position + body.length + 4) [] after).map fun more => flush plain ++ c :: more
      | .ok (.block head) =>
        match components (position + 2 + head.length) [] (body.drop head.length) with
        | .error e => .error e
        | .ok inner =>
          (components (position + body.length + 4) [] after).map fun more =>
            flush plain ++ .percent head.chance head.label inner :: more
  | .char '[' :: rest =>
    match h : takeBody false [] rest with
    | none => .error (.malformed position (.openMarker false))
    | some (body, after) =>
      have := takeBody_length h
      match placeholder (position + 1) body with
      | .error e => .error e
      | .ok p =>
        (components (position + body.length + 2) [] after).map fun more =>
          flush plain ++ .input p :: more
  | c :: rest => components (position + 1) (c :: plain) rest
termination_by s.length
decreasing_by all_goals (simp only [List.length_cons, List.length_drop]; omega)

/-- The components of a line that starts at position `offset` of its source. -/
def read (s : Text) (offset : Int) : Except TemplateError (List Component) :=
  components offset [] s

def readReference (s : Text) : Except TemplateError Reference :=
  let s := Text.trim s
  if (Text.trim (Text.cut '|' s).1).isEmpty then .error (.malformed 0 .noPath)
  else
    match Reference.ofText s with
    | .ok ref => .ok ref
    | .error fault => .error (.malformed 0 (.option fault))

end RandomTables.Template
