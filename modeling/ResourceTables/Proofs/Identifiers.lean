/-
# `ResourceTables.Proofs.Identifiers` — which names of a schema are identifiers

The names of resources and properties are checked when they are declared, and those of tables when
they are drafted.  Three names are not: the column that is set for the primary key, the inverse of a
one-to-many, which becomes a property of the resource on the other side, and the name of an owner in
snake case, which stands in for an inverse.  If these are identifiers, all names are, in every history;
an inverse that is none gets into the schema.
-/
import ResourceTables.Proofs.Ordering
import ResourceTables.Proofs.Shared
import ResourceTables.Proofs.Spelling
import ResourceTables.Proofs.Vocabulary

namespace ResourceTables

open Naming

/-- What a key column is called after two identifiers is an identifier. -/
theorem vocabulary_identifiers : Vocabulary (fun x => isIdentifier x = true) := by
  intro x k name column
  have joined : RelationshipBuilder.keyColumnName x k = x ++ ("_" ++ k.name) :=
    String.append_assoc ..
  rw [joined]
  refine isIdentifier_append name ?_
  rw [String.toList_append]
  exact List.forall_mem_append.2 ⟨by simp [isIdentifierRest], rest_of_isIdentifier column⟩

/-! ## What is not checked -/

/-- What one-to-manys may call the other side is an identifier: an inverse that is given, and the name
of the owner in snake case, if a one-to-many comes without an inverse or may be inherited. -/
structure Resource.Spelled (r : Resource) : Prop where
  inverses : ∀ p ∈ r.properties, ∀ s, p.property = .relationship s → s.kind = .oneToMany →
    ∀ i, s.inverse = some i → isIdentifier i = true
  default : (r.parent ≠ none ∨ ∃ p ∈ r.properties, ∃ s, p.property = .relationship s
    ∧ s.kind = .oneToMany ∧ s.inverse = none) → leadsWithLetter r.name = true

/-- The names in a declaration that is accepted are identifiers. -/
theorem Resource.Spelled.worded {r : Resource} (h : r.Spelled) (names : Compiler.checkNames r = .ok ()) :
    r.Worded fun x => isIdentifier x = true := by
  obtain ⟨own, properties⟩ := Compiler.checkNames_eq_ok.1 names
  exact ⟨properties, h.inverses, fun asked => (isIdentifier_snakeCase own).trans (h.default asked)⟩

/-- What can be asked of a compiler at once: a request, or to declare all resources of a file, whose
first property is made at some time. -/
inductive Call where
  | request (request : Request)
  | declareAll (created : Nat) (declarations : Declarations)

/-- Descriptors stay in the hands of the compiler, and what is declared is spelled. -/
def Call.Spelled : Call → Prop
  | .request (.declare resource) => resource.Spelled
  | .request (.configure _) => False
  | .request (.edit ..) => False
  | .request _ => True
  | .declareAll _ declarations => ∀ d ∈ declarations.resources, ∀ created resource,
      d.toResource created = .ok resource → resource.Spelled

theorem Call.Spelled.worded {request : Request} (h : (Call.request request).Spelled) :
    request.Worded fun x => isIdentifier x = true := by
  cases request with
  | declare resource => exact Resource.Spelled.worded h
  | configure _ => exact h
  | edit _ _ => exact h
  | _ => trivial

/-- Definitions have an order just if none of them gets stuck. -/
theorem Declarations.inOrder_eq_ok {file : Declarations} {ordered : List Definition} :
    file.inOrder = .ok ordered ↔ inRounds (·.name) isReady [] file.resources = (ordered, []) := by
  unfold inOrder
  split
  · rename_i rounds
    rw [rounds, Except.ok.injEq, Prod.mk.injEq, and_iff_left rfl]
  · rename_i left rounds
    rw [rounds, Prod.mk.injEq]
    simpa using fun _ => left

theorem Declarations.perm_of_inOrder {file : Declarations} {ordered : List Definition}
    (placed : file.inOrder = .ok ordered) : ordered.Perm file.resources := by
  have all := perm_inRounds (·.name) isReady file.resources []
  rwa [inOrder_eq_ok.1 placed, List.append_nil] at all

namespace Compiler

/-- The compiler after a call, whether it was granted or refused. -/
def afterCall (c : Compiler) : Call → Compiler
  | .request request => c.after request
  | .declareAll created declarations => (declareAll created declarations c).state

/-- The compiler after calls. -/
def serve (c : Compiler) (calls : List Call) : Compiler := calls.foldl afterCall c

/-- All names are identifiers. -/
structure Identified (c : Compiler) : Prop where
  fields : ∀ n d, c.descriptor? n = some d → ∀ e ∈ d.fields, isIdentifier e.name = true
  relationships : ∀ n d, c.descriptor? n = some d → ∀ e ∈ d.relationships,
    isIdentifier e.name = true
  tables : ∀ n m t, c.model? n = some m → m.table = some t → isIdentifier t.name = true
  columns : ∀ n m t, c.model? n = some m → m.table = some t → ∀ k ∈ t.columns,
    isIdentifier k.name = true
  mixin : ∀ n m, c.model? n = some m → ∀ k ∈ m.mixinColumns, isIdentifier k.name = true
  properties : ∀ n m, c.model? n = some m → ∀ p ∈ m.properties, isIdentifier p.name = true
  mapped : ∀ n m x k, c.model? n = some m → .column x k ∈ m.properties → isIdentifier k = true

/-! ## Files of declarations -/

/-- What declaring each of some definitions keeps, declaring all of them keeps. -/
theorem keeps_declareEach {I : Compiler → Prop} {ds : List Definition}
    (h : ∀ d ∈ ds, ∀ created resource, d.toResource created = .ok resource →
      Action.Keeps I (declare resource)) (created : Nat) :
    Action.Keeps I (declareEach created ds) := by
  induction ds generalizing created with
  | nil => exact Action.keeps_pure _
  | cons d rest ih =>
      refine Action.keeps_ofExcept_bind fun resource meant => ?_
      refine (h d List.mem_cons_self created resource meant).bind fun _ => ?_
      exact (ih (fun d mem => h d (List.mem_cons_of_mem _ mem)) _).bind fun _ => Action.keeps_pure _

theorem keeps_declareAll {I : Compiler → Prop} {declarations : Declarations}
    (h : ∀ d ∈ declarations.resources, ∀ created resource, d.toResource created = .ok resource →
      Action.Keeps I (declare resource)) (created : Nat) :
    Action.Keeps I (declareAll created declarations) := by
  refine (Action.keeps_ofExcept _).bind fun _ => Action.keeps_ofExcept_bind fun ordered placed => ?_
  have inside : ∀ d ∈ ordered, d ∈ declarations.resources :=
    fun d => (Declarations.perm_of_inOrder placed).mem_iff.1
  refine (keeps_declareEach (fun d mem => h d (inside d mem)) created).bind fun _ => ?_
  exact (Action.keeps_note _ _).bind fun _ => Action.keeps_pure _

/-! ## Calls, request by request -/

/-- Requests under identifiers lead from one compiler to another. -/
def Leads (c c' : Compiler) : Prop :=
  ∃ requests, c.run requests = c'
    ∧ ∀ request ∈ requests, request.Worded fun x => isIdentifier x = true

section Leads

variable {c c' : Compiler}

theorem Leads.refl (c : Compiler) : Leads c c := ⟨[], rfl, by simp⟩

theorem Leads.after (leads : Leads c c') {request : Request}
    (worded : request.Worded fun x => isIdentifier x = true) : Leads c (c'.after request) := by
  obtain ⟨requests, rfl, before⟩ := leads
  refine ⟨requests ++ [request], run_append c requests [request], ?_⟩
  exact List.forall_mem_append.2 ⟨before, List.forall_mem_singleton.2 worded⟩

theorem Leads.afterCall (leads : Leads c c') {call : Call} (spelled : call.Spelled) :
    Leads c (c'.afterCall call) := by
  cases call with
  | request request => exact leads.after spelled.worded
  | declareAll created declarations =>
      refine keeps_declareAll (I := Leads c) ?_ created c' leads
      intro d mem t resource meant c'' leads
      have asked : (Call.request (.declare resource)).Spelled := spelled d mem t resource meant
      exact leads.after asked.worded

theorem Leads.serve (leads : Leads c c') {calls : List Call}
    (spelled : ∀ call ∈ calls, call.Spelled) : Leads c (c'.serve calls) := by
  induction calls generalizing c' with
  | nil => exact leads
  | cons call later ih =>
      obtain ⟨here, others⟩ := List.forall_mem_cons.1 spelled
      exact ih (leads.afterCall here) others

end Leads

/-- If the column that is set for the primary key is an identifier, and what is declared is spelled,
all names are identifiers, wherever the calls lead. -/
theorem identified_of_spelled (settings : Settings) (calls : List Call)
    (key : settings.autoPrimaryKey = true → isIdentifier settings.primaryKeyColumn = true)
    (spelled : ∀ call ∈ calls, call.Spelled) : ((new settings).serve calls).Identified := by
  obtain ⟨requests, reached, worded⟩ := (Leads.refl (new settings)).serve spelled
  have words := (worded_run vocabulary_identifiers worded (coherent_new settings)
    (worded_new key)).2.workspace
  have named := tablesNamed_run settings requests
  rw [← reached]
  exact {
    fields := fun n d found => (words.descriptors n d found).fields
    relationships := fun n d found => (words.descriptors n d found).relationships
    tables := fun n m t cached table =>
      (named n t (Option.bind_eq_some_iff.2 ⟨m, cached, table⟩)).isIdentifier
    columns := fun n m t cached => (words.models n m cached).table t
    mixin := fun n m cached => (words.models n m cached).mixin
    properties := fun n m cached => (words.models n m cached).properties
    mapped := fun n m x k cached => (words.models n m cached).mapped x k }

/-- A file of posts and their users, whose posts call their user by some name. -/
def posts (inverse : String) : Declarations :=
  { resources := [{ name := "Post" },
      { name := "User"
        relationships := [{ name := "posts", kind := .oneToMany, target := "Post"
                            inverse := some inverse }] }] }

/-- The file is declared and the user generated. -/
def published (inverse : String) : List Call :=
  [.declareAll 0 (posts inverse), .request (.generate "User")]

theorem spelled_published {inverse : String} (identifier : isIdentifier inverse = true) :
    ∀ call ∈ published inverse, call.Spelled := by
  refine List.forall_mem_cons.2 ⟨?_, List.forall_mem_singleton.2 trivial⟩
  refine List.forall_mem_cons.2 ⟨?_, List.forall_mem_singleton.2 ?_⟩
  · rintro t _ ⟨⟩
    exact ⟨by simp [Definition.properties], by simp [Definition.properties]⟩
  · rintro t _ ⟨⟩
    constructor
    · simp [Definition.properties, RelationshipDefinition.toRelationship, identifier]
    · simp [Definition.properties, RelationshipDefinition.toRelationship]

theorem identified_of_spelled_published :
    isIdentifier ({} : Settings).primaryKeyColumn = true
      ∧ (∀ call ∈ published "author", call.Spelled)
      ∧ (((new {}).serve (published "author")).model? "Post").any (fun m =>
          m.table.any (·.columns.any (·.name == "author_id"))) = true
      ∧ ((new {}).serve (published "author")).Identified :=
  have spelled := spelled_published (by decide)
  ⟨by decide, spelled, by cbv, identified_of_spelled {} (published "author") (by decide) spelled⟩

/-- What an inverse is called gets into the key column of the other side, identifier or not. -/
theorem published_columns :
    (((new {}).serve (published "the author")).model? "Post").any (fun m =>
      m.table.any (·.columns.any (·.name == "the author_id"))) = true := by
  cbv

/-- With settings that are accepted, a column gets a name that is no identifier. -/
theorem published_not_identified : ({} : Settings).validate = .ok {}
    ∧ ¬ ((new {}).serve (published "the author")).Identified := by
  refine ⟨by decide, fun identified => ?_⟩
  obtain ⟨m, cached, table⟩ := (Option.any_eq_true _ _).1 published_columns
  obtain ⟨t, there, column⟩ := (Option.any_eq_true _ _).1 table
  obtain ⟨k, mem, name⟩ := List.any_eq_true.1 column
  have identifier := identified.columns "Post" m t cached there k mem
  rw [beq_iff_eq.1 name] at identifier
  exact absurd identifier (by decide)

end Compiler

end ResourceTables
