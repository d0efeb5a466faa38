import RandomTables.Text.Basic

/-!
# Items on a disk

A disk is a tree of folders. Under a name in a folder stands a file, a link, which is a path name to
go on from, or another folder. A place is the list of names that leads down to an item; places are
followed here without regard to links.
-/
namespace RandomTables

/-- What stands under a name in a folder. -/
inductive Item where
  | file (content : ByteArray)
  | link (target : Text)
  | folder (items : List (Text × Item))
  deriving Inhabited

namespace Item

def lookup (name : Text) : List (Text × Item) → Option Item
  | [] => none
  | (key, item) :: rest => if key = name then some item else lookup name rest

/-- Put an item under a name, in the place of what stands there or at the end. -/
def enter (name : Text) (item : Item) : List (Text × Item) → List (Text × Item)
  | [] => [(name, item)]
  | (key, old) :: rest =>
    if key = name then (key, item) :: rest else (key, old) :: enter name item rest

def at? : Item → List Text → Option Item
  | item, [] => some item
  | folder items, name :: rest => (lookup name items).bind fun item => item.at? rest
  | _, _ :: _ => none

/-- The entries of a folder; none for anything else. -/
def entries : Item → List (Text × Item)
  | folder items => items
  | _ => []

/-- Put an item at a place. What stands on the way there becomes a folder if it is none. -/
def put (new : Item) : Item → List Text → Item
  | _, [] => new
  | item, name :: rest =>
    let below := (lookup name item.entries).getD (folder [])
    folder (enter name (put new below rest) item.entries)

def isFolder : Item → Bool
  | folder _ => true
  | _ => false

def isFile : Item → Bool
  | file _ => true
  | _ => false

mutual

/-- The places of all files and links below an item. -/
def leaves : Item → List (List Text)
  | file _ => [[]]
  | link _ => [[]]
  | folder items => leavesOfEntries items

/-- The places of all files and links below the entries of a folder. -/
def leavesOfEntries : List (Text × Item) → List (List Text)
  | [] => []
  | (name, item) :: rest => (leaves item).map (name :: ·) ++ leavesOfEntries rest

end

mutual

/-- How many links there are below an item, itself included. -/
def countLinks : Item → Nat
  | file _ => 0
  | link _ => 1
  | folder items => countLinksOfEntries items

/-- How many links there are below the entries of a folder. -/
def countLinksOfEntries : List (Text × Item) → Nat
  | [] => 0
  | (_, item) :: rest => countLinks item + countLinksOfEntries rest

end

theorem lookup_enter (name key : Text) (item : Item) (items : List (Text × Item)) :
    lookup name (enter key item items) = if key = name then some item else lookup name items := by
  induction items with
  | nil => simp [enter, lookup]
  | cons e rest ih =>
    obtain ⟨k, old⟩ := e
    by_cases hk : k = key
    · subst hk
      by_cases hn : k = name <;> simp [enter, lookup, hn]
    · by_cases hn : k = name
      · subst hn
        simp [enter, lookup, hk, Ne.symm hk]
      · simp [enter, lookup, hk, hn, ih]

/-- What is put at a place is found there. -/
@[simp] theorem at?_put (new item : Item) (place : List Text) :
    (put new item place).at? place = some new := by
  induction place generalizing item with
  | nil => simp [put, at?]
  | cons name rest ih => simp [put, at?, lookup_enter, ih]

end Item
end RandomTables
