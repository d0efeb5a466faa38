import RandomTables.Disk.Walk

/-!
# Absolute path names

A path name is made absolute by putting what links point to in their places, as many as there are,
whether anything is there in the end or not. A link that leads back to itself is left as it stands,
together with whatever comes after it.
-/
namespace RandomTables

/-- Why a path name is not settled: it comes to a link that is being followed already, as the text
of a path name that is left as it stands, or it cannot be written. -/
inductive Unsettled where
  | circle (path : Text)
  | unwritable (kind : DiskFaultKind)

/-- Names after the path in front of them, unless they start from the root themselves. -/
def joinNames (front : Text) (names : List Text) : Text :=
  let rest := Text.joinWith "/" names
  if rest.startsWith "/" then rest else front ++ "/" ++ rest

namespace Disk

/-- The place that names mean after a place that no link leads through, while the links in `opened`
are being followed. The names are those between slashes, so that some may be empty. No more links
are opened than there are, which `depth` bounds. -/
def settleFrom (root : Item) (depth : Nat) (opened : List (List Text)) (place : List Text)
    (names : List Text) : Except Unsettled (List Text) :=
  match names with
  | [] => .ok place
  | name :: rest =>
    if name.isEmpty || name = "." then settleFrom root depth opened place rest
    else if name = ".." then settleFrom root depth opened place.dropLast rest
    else
      let next := place ++ [name]
      let circle : Text := joinNames (PathName.ofPlace next).text rest
      match PathName.writingFault? name with
      | some kind => .error (.unwritable kind)
      | none =>
        match root.at? next with
        | some (.link target) =>
          match depth with
          | 0 => .error (.circle circle)
          | depth + 1 =>
            if opened.contains next then .error (.circle circle)
            else
              let start := if target.startsWith "/" then [] else place
              match settleFrom root depth (next :: opened) start (Text.split '/' target) with
              | .error (.circle path) => .error (.circle (joinNames path rest))
              | .error fault => .error fault
              | .ok settled => settleFrom root (depth + 1) opened settled rest
        | _ => settleFrom root depth opened next rest
termination_by (depth, names.length)

/-- The absolute path name that a path name means. One that cannot be followed because of a circle
of links means nothing. -/
def settle (disk : Disk) (p : PathName) : Except DiskFault PathName :=
  let found : Except DiskFaultKind PathName :=
    match settleFrom disk.root (disk.root.countLinks + 1) [] (disk.start p) p.names with
    | .ok place => .ok (.ofPlace place)
    | .error (.circle path) => .ok (PathName.read path).flattened
    | .error (.unwritable kind) => .error kind
  match found with
  | .error kind => .error ⟨kind, p.text⟩
  | .ok q =>
    match disk.find q with
    | .error .manyLinks => .error ⟨.endless, q.text⟩
    | .error .zeroByte => .error ⟨.zeroByte, q.text⟩
    | .error .looseHalf => .error ⟨.looseHalf, q.text⟩
    | _ => .ok q

end Disk
end RandomTables
