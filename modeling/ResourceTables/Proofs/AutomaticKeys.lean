/-
# `ResourceTables.Proofs.AutomaticKeys` — which resources automatic primary keys leave without a key

The built-in configurator passes over a resource with an identifying relationship, since the columns
of its key are going to be the primary key.  It does not ask whether the relationship hosts a key,
which is what the generator goes by: the one side of a one-to-many never does.  So a resource whose
identifying relationships all leave the key to the other side ends up with none at all, unless it
has a field for it or something of the name that the key would have had.
-/
import ResourceTables.Proofs.Entries
import ResourceTables.Proofs.KeyedTargets
import ResourceTables.Proofs.Permanence
import ResourceTables.Proofs.Precedence
import ResourceTables.Proofs.Refusals

namespace ResourceTables

namespace Descriptor

/-- There is something to make the primary key of: a field, the key that an identifying relationship
hosts, or a property that has the name of the key. -/
def Keyed (d : Descriptor) (column : String) : Prop :=
  d.hasPrimaryKey = true ∨ d.identifyingTargets ≠ [] ∨ d.hasProperty column = true

variable {d : Descriptor} {column : String}

end Descriptor

/-! ## The configurator -/

namespace Configurator

variable {settings : Settings} {d d' : Descriptor}

end Configurator

/-! ## Declarations -/

namespace Compiler

open Ancestry Generation

/-- A book, for an author. -/
def books : List Request := [.declare { name := "Book" }]

end Compiler

end ResourceTables
