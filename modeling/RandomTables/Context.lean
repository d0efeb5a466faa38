import RandomTables.Bindings

/-!
# Contexts

The depth at which a reference is rolled and the variables it can read. A nested reference is
rolled one level deeper with further bindings on top.
-/
namespace RandomTables

/-- Depth and variables of a roll. -/
structure Context where
  depth : Int
  vars : Bindings Int
  deriving Repr, DecidableEq, Inhabited

namespace Context

/-- Depth zero without variables. -/
def root : Context := ⟨0, .empty⟩

/-- The context one level deeper, with bindings on top. -/
def child (c : Context) (bindings : Bindings Int) : Context :=
  ⟨c.depth + 1, c.vars.merge bindings⟩

def extended (c : Context) (bindings : Bindings Int) : Context :=
  ⟨c.depth, c.vars.merge bindings⟩

/-- The value of a variable, or `absent`. -/
def value (c : Context) (key : Text) (absent : Int) : Int := (c.vars.get? key).getD absent

@[simp] theorem extended_empty (c : Context) : c.extended .empty = c := rfl

@[simp] theorem child_depth (c : Context) (bindings : Bindings Int) :
    (c.child bindings).depth = c.depth + 1 := rfl

@[simp] theorem extended_depth (c : Context) (bindings : Bindings Int) :
    (c.extended bindings).depth = c.depth := rfl

end Context
end RandomTables
