import RandomTables.Text.Basic

/-!
# Bindings

A list of names with values, in the order in which the names were first bound. Binding a name again
changes its value and keeps its place. What a name stands for is given by `get?`, and each
operation is described by what it does to `get?`.
-/
namespace RandomTables

/-- Names with values, in the order in which the names were first bound. -/
structure Bindings (α : Type) where
  entries : List (Text × α)
  deriving Repr, DecidableEq

namespace Bindings
variable {α : Type}

/-- Nothing is bound. -/
def empty : Bindings α := ⟨[]⟩

instance : Inhabited (Bindings α) := ⟨empty⟩

/-- The value in the first entry under the name. -/
def lookup (name : Text) : List (Text × α) → Option α
  | [] => none
  | (key, value) :: rest => if key = name then some value else lookup name rest

/-- The value that the name is bound to. -/
def get? (b : Bindings α) (name : Text) : Option α := lookup name b.entries

/-- Put a value into the first entry under the name, or into a new last entry. -/
def put (name : Text) (value : α) : List (Text × α) → List (Text × α)
  | [] => [(name, value)]
  | (key, old) :: rest =>
    if key = name then (key, value) :: rest else (key, old) :: put name value rest

/-- Bind a name, in the place it has already if it is bound. -/
def set (b : Bindings α) (name : Text) (value : α) : Bindings α := ⟨put name value b.entries⟩

/-- Bind every name of a list in turn. -/
def setAll (b : Bindings α) (entries : List (Text × α)) : Bindings α :=
  entries.foldl (fun b e => b.set e.1 e.2) b

/-- Bind every name of `c` on top of `b`. -/
def merge (b c : Bindings α) : Bindings α := b.setAll c.entries

/-- The bindings that a list makes when its entries are bound in turn. -/
def ofList (entries : List (Text × α)) : Bindings α := empty.setAll entries

/-- The bound names in order. -/
def keys (b : Bindings α) : List Text := b.entries.map (·.1)

/-- No name is bound. -/
def isEmpty (b : Bindings α) : Bool := b.entries.isEmpty

@[simp] theorem get?_empty (name : Text) : (empty : Bindings α).get? name = none := rfl

theorem lookup_put (name key : Text) (value : α) (entries : List (Text × α)) :
    lookup name (put key value entries) =
      if key = name then some value else lookup name entries := by
  induction entries with
  | nil => simp [put, lookup]
  | cons e rest ih =>
    obtain ⟨k, old⟩ := e
    by_cases hk : k = key
    · subst hk
      by_cases hn : k = name <;> simp [put, lookup, hn]
    · by_cases hn : k = name
      · subst hn
        simp [put, lookup, hk, Ne.symm hk]
      · simp [put, lookup, hk, hn, ih]

@[simp] theorem get?_set (b : Bindings α) (key name : Text) (value : α) :
    (b.set key value).get? name = if key = name then some value else b.get? name :=
  lookup_put name key value b.entries

@[simp] theorem merge_empty (b : Bindings α) : b.merge empty = b := rfl

end Bindings
end RandomTables
