/-
# `ResourceTables.Ancestry` — what a resource inherits along its chain of parents

Inherited properties come first, ordered by the time of their making; a resource's own follow.
Of methods with one name the nearest counts.
-/
import ResourceTables.Action
import ResourceTables.Reach
import ResourceTables.Resource

namespace ResourceTables

/-- A property together with the resource that declares it. -/
structure CollectedProperty where
  name : String
  property : Property
  declaredBy : String
  deriving DecidableEq

namespace Ancestry

/-- The chain of parents from `parent` on.  A name in `seen` closes a loop; errors name the
resource whose chain is walked. -/
def chainFrom (resources : Roster Resource) (resource : String) (seen : List String)
    (parent : Option String) : Except Error (List Resource) :=
  match parent with
  | none => .ok []
  | some name =>
    if _new : name ∈ seen then
      .error (.brokenHierarchy resource s!"inheritance cycle through '{name}'")
    else
      match _found : resources.get? name with
      | none => .error (.brokenHierarchy resource s!"base resource '{name}' is not declared")
      | some found =>
        match chainFrom resources resource (name :: seen) found.parent with
        | .ok rest => .ok (found :: rest)
        | .error e => .error e
termination_by (unmet resources.names seen).length
decreasing_by
  have inside : name ∈ resources.names := by
    rw [← Roster.contains_iff_mem_names, Roster.contains_eq_isSome_get?, _found]
    rfl
  exact length_unmet_lt inside _new (fun n h => List.mem_cons_of_mem _ h) List.mem_cons_self

/-- The proper ancestors of a resource, nearest first. -/
def ancestors (resources : Roster Resource) (resource : Resource) :
    Except Error (List Resource) :=
  chainFrom resources resource.name [resource.name] resource.parent

/-- Declared properties with the name of their resource. -/
def marked (resource : Resource) : List (DeclaredProperty × String) :=
  resource.properties.map fun p => (p, resource.name)

/-- Properties by the time of their making; those of one time keep their order. -/
def inOrder (properties : List (DeclaredProperty × String)) : List CollectedProperty :=
  (properties.mergeSort fun a b => a.1.created ≤ b.1.created).map fun (p, declaredBy) =>
    { name := p.name, property := p.property, declaredBy }

/-- The properties of the ancestors, which are given nearest first. -/
def inherited (chain : List Resource) : List CollectedProperty :=
  inOrder (chain.reverse.flatMap marked)

/-- The properties that a resource declares itself. -/
def own (resource : Resource) : List CollectedProperty := inOrder (marked resource)

/-- Every property of a resource: the inherited ones, then its own. -/
def collect {σ : Type} (resources : Roster Resource) (resource : Resource) :
    Action σ (List CollectedProperty) := do
  let chain ← Action.ofExcept (ancestors resources resource)
  let far := inherited chain
  let near := own resource
  Action.note .debug
    s!"Collected {far.length} inherited and {near.length} own properties for '{resource.name}'"
  return far ++ near

/-- Puts a method in the place of one with its name, else at the end. -/
def putMethod (methods : List (String × Method)) (name : String) (method : Method) :
    List (String × Method) :=
  if methods.any (·.1 == name) then
    methods.map fun (n, m) => if n == name then (n, method) else (n, m)
  else methods ++ [(name, method)]

/-- Every method of a resource: those first declared farther up come first, and each is the
nearest declaration of its name. -/
def collectMethods (resources : Roster Resource) (resource : Resource) :
    Except Error (List (String × Method)) := do
  let chain ← ancestors resources resource
  let declared := (chain.reverse ++ [resource]).flatMap (·.methods)
  return declared.foldl (fun methods (name, method) => putMethod methods name method) []

end Ancestry

end ResourceTables
