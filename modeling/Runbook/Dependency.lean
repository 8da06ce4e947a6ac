import Runbook.TaskGroup

/-!
# Dependencies between groups

A group waits for the groups it names. Within a plan every group also waits for the one before it
(`chained`), so that a plan is carried out from top to bottom. A name that no group has is waited
for forever; a cycle of names is refused before anything is carried out (`cycle?`).

## The search for a cycle

`search` walks depth first along dependencies, groups in document order and names in code point
order, so that of several cycles a fixed one is reported. It keeps the path it came by and
everything it has seen. A name on the path closes a cycle; a name that has been seen but is not on
the path has been searched already and led to none. Fuel bounds the depth; since a path never holds
a name twice, one more than the number of groups is enough.
-/

set_option autoImplicit false

namespace Runbook.Dependency

/-! ## Chains -/

/-- Groups behind a group of some name, each made to wait for the one before it. -/
def chainedAfter (previous : String) : List TaskGroup → List TaskGroup
  | [] => []
  | g :: gs => g.addDependency previous :: chainedAfter g.name gs

def chained : List TaskGroup → List TaskGroup
  | [] => []
  | g :: gs => g :: chainedAfter g.name gs

/-! ## Cycles -/

/-- The names that a named group waits for. Where several groups share a name, the last one
counts. -/
def dependenciesOf? (groups : List TaskGroup) (name : String) : Option (List String) :=
  (groups.reverse.find? (·.name == name)).map (·.dependencies)

/-- What a search has found. -/
inductive Search where
  /-- A path that ends with a name it holds already. -/
  | cycle (path : List String)
  /-- No cycle, and every name seen on the way. -/
  | clear (seen : List String)
deriving DecidableEq, Repr

/-- Search from each of some names, given the path to them, nearest name first, and the names that
have been seen. -/
def search (groups : List TaskGroup) : Nat → List String → List String → List String → Search
  | _, _, seen, [] => .clear seen
  | fuel, path, seen, name :: names =>
    if name ∈ seen then
      if name ∈ path then .cycle (path.reverse ++ [name]) else search groups fuel path seen names
    else
      match fuel, dependenciesOf? groups name with
      | fuel + 1, some dependencies =>
        match search groups fuel (name :: path) (name :: seen) dependencies with
        | .cycle found => .cycle found
        | .clear seen => search groups (fuel + 1) path seen names
      | fuel, _ => search groups fuel path seen names
termination_by fuel _ _ names => (fuel, names.length)

/-- A path along dependencies from the first group that leads into a cycle, up to the name that
closes it. -/
def cycle? (groups : List TaskGroup) : Option (List String) :=
  match search groups (groups.length + 1) [] [] (groups.map (·.name)) with
  | .cycle path => some path
  | .clear _ => none

/-! ## Readiness -/

/-- The places of the pending groups that wait for no group any more. -/
def ready (groups : List TaskGroup) (completed : List String) : List Nat :=
  (groups.zipIdx.filter fun (g, _) => g.status == .pending && g.isReady completed).map (·.2)

end Runbook.Dependency
