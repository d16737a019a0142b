import Chip8.Command.Path

namespace Chip8.Command

/-! Places in the tree of directories. Many paths lead to one place, because double dots lead back
    to the directory around it. -/

inductive Origin
  | root
  /-- So many levels above the directory in which a command runs. -/
  | above (levels : Nat)
  deriving DecidableEq, Repr

structure Place where
  origin : Origin
  /-- The innermost name comes first. -/
  names : List String := []
  deriving DecidableEq, Repr

namespace Place

/-- The directory that a place lies in. The root lies in itself. -/
def outward (place : Place) : Place :=
  match place.names, place.origin with
  | _ :: names, origin => ⟨origin, names⟩
  | [], .above levels => ⟨.above (levels + 1), []⟩
  | [], .root => place

def step (place : Place) (name : String) : Place :=
  if name = ".." then place.outward else { place with names := name :: place.names }

/-- Whether the one place is a directory that the other lies in, at whatever depth. -/
def Encloses (outer inner : Place) : Prop :=
  outer.origin = inner.origin ∧ outer.names ≠ inner.names ∧ outer.names <:+ inner.names

instance (outer inner : Place) : Decidable (outer.Encloses inner) := by
  unfold Encloses
  infer_instance

/-- The shortest path to a place that lies where a command runs. -/
def path? (place : Place) : Option Path :=
  match place.origin with
  | .above 0 => some { names := place.names.reverse }
  | _ => none

end Place

namespace Path

def start (path : Path) : Place :=
  match path.anchor with
  | .here => ⟨.above 0, []⟩
  | .root => ⟨.root, []⟩
  | .doubleRoot => ⟨.root, []⟩

def place (path : Path) : Place :=
  path.names.foldl Place.step path.start

end Path

end Chip8.Command
