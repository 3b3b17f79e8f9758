/-
# `ResourceTables.Proofs.Duplicates` — when a property counts as declared twice

A property is refused if the last one entered under its name comes from the same resource.  Between two
declarations of one resource under one name there might stand a third, of another resource, that hides
the first from the second: inherited properties are entered by the time of their making, and those of
several ancestors take turns.

It never does.  Of the ancestors each declares a name once, or it would not have been accepted, and the
own properties of a resource come after all that it inherits, next to each other.  So what decides is
which names stand twice in the definition itself, and nothing that is declared elsewhere.
-/
import Mathlib
import ResourceTables.Proofs.Identifiers
import ResourceTables.Proofs.Precedence
import ResourceTables.Proofs.Refusals

namespace ResourceTables

/-- What stands twice in two lists, of which the first holds nothing twice and nothing of the second,
stands twice in the second. -/
theorem duplicate_of_append {α : Type} {x : α} {xs ys : List α} (once : xs.Nodup)
    (apart : List.Disjoint xs ys) (twice : List.Duplicate x (xs ++ ys)) : List.Duplicate x ys := by
  obtain ⟨first, second, split, far, near⟩ :=
    List.sublist_append_iff.1 (List.duplicate_iff_sublist.1 twice)
  rcases first with _ | ⟨a, _ | ⟨b, first⟩⟩
  · rw [List.nil_append] at split
    exact List.duplicate_iff_sublist.2 (split ▸ near)
  · obtain ⟨rfl, rfl⟩ := List.cons.inj split
    exact absurd (List.singleton_sublist.1 near) (apart (List.singleton_sublist.1 far))
  · obtain ⟨here, split⟩ := List.cons.inj split
    obtain ⟨there, _⟩ := List.cons.inj split
    have pair : List.Sublist [x, x] xs := by
      rw [← here, ← there] at far
      exact ((List.nil_sublist first).cons_cons x |>.cons_cons x).trans far
    exact absurd once (List.exists_duplicate_iff_not_nodup.1 ⟨x, List.duplicate_iff_sublist.2 pair⟩)

/-! ## Entering what is declared once -/

namespace CollectedProperty

/-- A name with the resource that declares it. -/
def claim (p : CollectedProperty) : String × String := (p.name, p.declaredBy)

end CollectedProperty

namespace Descriptor

variable {d d' : Descriptor} {ps : List CollectedProperty} {e : Error}

/-- Into a descriptor that holds nothing, a list of properties is refused only for a name that one
resource declares twice in it. -/
theorem exists_duplicate_of_register (wf : d.WellFormed) (empty : ∀ n, d.holding? n = none)
    (h : (forM ps register).Fails d e d') : ∃ n o, e = .duplicateProperty d.resource n
      ∧ List.Duplicate (n, o) (ps.map CollectedProperty.claim) := by
  obtain ⟨done, p, rest, t, rfl, ⟨entered, edited⟩, refused⟩ := h.forM_induction
    (I := fun done t => (forM done register).Answers d ⟨⟩ t ∧ Edited d t)
    ⟨Action.answers_forM_nil.2 rfl, edited_refl d⟩ (by
      rintro done p rest t t' rfl ⟨before, edited⟩ one
      refine ⟨Action.answers_forM_append.2 ⟨t, before, ?_⟩, ?_⟩
      · exact Action.answers_forM_cons.2 ⟨t', one, Action.answers_forM_nil.2 rfl⟩
      · obtain ⟨-, rfl⟩ := (answers_register (edited.wellFormed wf)).1 one
        exact edited.trans (edited_entered t p))
  obtain ⟨twice, rfl, -⟩ := fails_register.1 refused
  rw [edited.resource_eq]
  refine ⟨p.name, p.declaredBy, rfl, ?_⟩
  -- What is held under the name is the last that was entered, so that is of the same resource.
  rw [declaredBy?_eq_holding?, (holding?_registered wf entered).2, empty, Option.or_none,
    Option.map_map, Option.map_eq_some_iff] at twice
  obtain ⟨q, last, same⟩ := twice
  have mem : q ∈ done := List.mem_reverse.1 (List.mem_of_find?_eq_some last)
  have name : q.name = p.name := by simpa using List.find?_some last
  have claims : q.claim = p.claim := Prod.ext name same
  change List.Duplicate p.claim _
  rw [List.map_append, List.map_cons, ← claims]
  refine List.duplicate_iff_sublist.2 ?_
  exact ((List.singleton_sublist.2 (List.mem_map_of_mem mem)).append
    (List.singleton_sublist.2 List.mem_cons_self))

end Descriptor

/-! ## What a line of ancestors declares -/

namespace Ancestry

variable {resource : Resource} {chain : List Resource} {n o : String}

/-- The claims of a resource, without the times. -/
theorem claims_inOrder (ds : List (DeclaredProperty × String)) :
    ((inOrder ds).map CollectedProperty.claim).Perm (ds.map fun d => (d.1.name, d.2)) := by
  rw [inOrder_eq, List.map_map]
  exact (List.mergeSort_perm ds _).map _

/-- Ancestors with different names that declare each name once claim nothing twice. -/
theorem nodup_claims_inherited (distinct : (chain.map (·.name)).Nodup)
    (once : ∀ r ∈ chain, (r.properties.map (·.name)).Nodup) :
    ((inherited chain).map CollectedProperty.claim).Nodup := by
  rw [inherited, (claims_inOrder _).nodup_iff, List.map_flatMap, List.nodup_flatMap]
  constructor
  · intro r mem
    rw [marked, List.map_map]
    have own := (once r (List.mem_reverse.1 mem)).map (f := fun n => (n, r.name))
      fun _ _ same => (Prod.mk.inj same).1
    rwa [List.map_map] at own
  · rw [List.pairwise_reverse]
    refine (List.pairwise_map.1 distinct).imp fun other => ?_
    intro claim first second
    obtain ⟨_, mem, rfl⟩ := List.mem_map.1 first
    obtain ⟨_, mem', same⟩ := List.mem_map.1 second
    obtain ⟨_, _, rfl⟩ := List.mem_map.1 mem
    obtain ⟨_, _, rfl⟩ := List.mem_map.1 mem'
    exact other (Prod.mk.inj same).2

theorem mem_claims_inherited (mem : (n, o) ∈ (inherited chain).map CollectedProperty.claim) :
    o ∈ chain.map (·.name) := by
  obtain ⟨q, inside, same⟩ := List.mem_map.1 mem
  obtain ⟨r, line, _, _, rfl⟩ := mem_inherited.1 inside
  exact (Prod.mk.inj same).2 ▸ List.mem_map_of_mem line

theorem mem_claims_own (mem : (n, o) ∈ (own resource).map CollectedProperty.claim) :
    o = resource.name := by
  obtain ⟨q, inside, same⟩ := List.mem_map.1 mem
  obtain ⟨_, _, rfl⟩ := mem_own.1 inside
  exact (Prod.mk.inj same).2.symm

/-- What a resource claims is claimed by none of its ancestors, and these claim nothing twice.  So what
is claimed twice is declared twice by the resource itself. -/
theorem duplicate_of_claims (distinct : ((resource :: chain).map (·.name)).Nodup)
    (once : ∀ r ∈ chain, (r.properties.map (·.name)).Nodup)
    (twice : List.Duplicate (n, o)
      ((inherited chain ++ own resource).map CollectedProperty.claim)) :
    o = resource.name ∧ List.Duplicate n (resource.properties.map (·.name)) := by
  obtain ⟨apart, distinct⟩ := List.nodup_cons.1 distinct
  change resource.name ∉ chain.map (·.name) at apart
  have disjoint : List.Disjoint ((inherited chain).map CollectedProperty.claim)
      ((own resource).map CollectedProperty.claim) := fun (_, _) far near =>
    apart (mem_claims_own near ▸ mem_claims_inherited far)
  rw [List.map_append] at twice
  have near := duplicate_of_append (nodup_claims_inherited distinct once) disjoint twice
  refine ⟨mem_claims_own near.mem, ?_⟩
  have names := (List.duplicate_iff_sublist.1 near).map Prod.fst
  rw [List.map_map] at names
  rw [List.duplicate_iff_two_le_count, ← (Compiler.perm_own resource).count_eq,
    ← List.duplicate_iff_two_le_count]
  exact List.duplicate_iff_sublist.2 names

end Ancestry

/-! ## Declarations -/

namespace Compiler

open Ancestry

variable {c c' : Compiler} {resource : Resource} {chain : List Resource} {e : Error}

/-- Whatever is asked of a compiler, files of declarations included, requests lead there. -/
theorem exists_run_eq_serve (c : Compiler) (calls : List Call) :
    ∃ requests, c.run requests = c.serve calls := by
  have after : ∀ t request, (∃ requests, c.run requests = t) →
      ∃ requests, c.run requests = t.after request := by
    rintro _ request ⟨requests, rfl⟩
    exact ⟨requests ++ [request], run_append c requests [request]⟩
  suffices ∀ t, (∃ requests, c.run requests = t) → ∃ requests, c.run requests = t.serve calls from
    this c ⟨[], rfl⟩
  induction calls with
  | nil => exact fun _ reached => reached
  | cons call later ih =>
      intro t reached
      refine ih _ ?_
      cases call with
      | request request => exact after t request reached
      | declareAll created file =>
          exact keeps_declareAll (I := fun t => ∃ requests, c.run requests = t)
            (fun _ _ _ resource _ t => after t (.declare resource)) created t reached

/-- The resources above a registered line declare each name once. -/
theorem NamesOnce.ancestors (once : NamesOnce c.resources)
    (named : ∀ n r, c.resources.get? n = some r → r.name = n)
    (walked : Ancestry.ancestors c.resources resource = .ok chain) :
    ∀ r ∈ chain, (r.properties.map (·.name)).Nodup :=
  fun r mem => once r.name r ((chainFrom_eq_ok named walked).1 r mem).1

/-- With the built-in configurator at most, a resource under identifiers whose line of parents can be
walked is refused for what it declares twice itself. -/
theorem duplicate_of_refused (builtIn : ∀ k ∈ c.configurators, k = .primaryKey)
    (named : ∀ n r, c.resources.get? n = some r → r.name = n) (once : NamesOnce c.resources)
    (names : checkNames resource = .ok ())
    (walked : Ancestry.ancestors c.resources resource = .ok chain)
    (refused : (declare resource).Fails c e c') : c' = c ∧
      ∃ n, e = .duplicateProperty resource.name n
        ∧ List.Duplicate n (resource.properties.map (·.name)) := by
  obtain ⟨rfl, d, unfilled⟩ := (fails_declare_iff names).1 refused
  refine ⟨rfl, ?_⟩
  rcases fails_fill unfilled with broken | ⟨_, walked', twice | ⟨k, mem, _, _, failed⟩⟩
  · rw [walked] at broken
    cases broken
  · obtain rfl := Except.ok.inj (walked.symm.trans walked')
    obtain ⟨n, o, rfl, claimed⟩ := Descriptor.exists_duplicate_of_register
      (Descriptor.pristine_ofResource resource).wellFormed (fun _ => rfl) twice
    exact ⟨n, rfl, (duplicate_of_claims (nodup_ancestors named walked)
      (once.ancestors named walked) claimed).2⟩
  · rw [builtIn k mem] at failed
    exact absurd failed Configurator.not_fails_addPrimaryKey

/-- In every state that can be reached, and with the built-in configurator at most, a resource whose
names are identifiers and whose line of parents can be walked is refused for a property that is declared
twice just if it declares some name twice itself, whatever its ancestors declare and whenever.  It is
declared in every other case, and refused for nothing else. -/
theorem declare_refuses_duplicates (settings : Settings) (calls : List Call) (c : Compiler)
    (reached : (new settings).serve calls = c) (builtIn : ∀ k ∈ c.configurators, k = .primaryKey)
    (resource : Resource) (identifier : Naming.isIdentifier resource.name = true)
    (identifiers : ∀ p ∈ resource.properties, Naming.isIdentifier p.name = true)
    (chain : List Resource) (walked : ancestors c.resources resource = .ok chain) :
    ((∃ about n c', (declare resource).Fails c (.duplicateProperty about n) c') ↔
      ∃ n, List.Duplicate n (resource.properties.map (·.name))) ∧
    ((∃ c', (declare resource).Answers c () c') ↔
      ¬ ∃ n, List.Duplicate n (resource.properties.map (·.name))) ∧
    ∀ e c', (declare resource).Fails c e c' → c' = c ∧
      ∃ n, e = .duplicateProperty resource.name n
        ∧ List.Duplicate n (resource.properties.map (·.name)) := by
  obtain ⟨requests, same⟩ := exists_run_eq_serve (new settings) calls
  have run := same.trans reached
  have named := (run ▸ coherent_run settings requests : c.Coherent).sound.named
  have once : NamesOnce c.resources := run ▸ namesOnce_run settings requests
  have names := checkNames_eq_ok.2 ⟨identifier, identifiers⟩
  have refused : ∀ {e c'}, (declare resource).Fails c e c' → c' = c ∧
      ∃ n, e = .duplicateProperty resource.name n
        ∧ List.Duplicate n (resource.properties.map (·.name)) :=
    duplicate_of_refused builtIn named once names walked
  have accepted : ∀ {c'}, (declare resource).Answers c () c' →
      ¬ ∃ n, List.Duplicate n (resource.properties.map (·.name)) := by
    intro c' answers twice
    obtain ⟨_, _, filled, _⟩ := answers_declare.1 answers
    exact List.exists_duplicate_iff_not_nodup.1 twice (nodup_of_fill filled)
  refine ⟨⟨?_, fun twice => ?_⟩, ⟨fun ⟨_, answers⟩ => accepted answers, fun once => ?_⟩,
    fun _ _ => refused⟩
  · rintro ⟨_, _, _, fails⟩
    obtain ⟨-, n, -, twice⟩ := refused fails
    exact ⟨n, twice⟩
  · rcases Action.answers_or_fails (declare resource) c with ⟨⟨⟩, c', answers⟩ | ⟨e, c', fails⟩
    · exact absurd twice (accepted answers)
    · obtain ⟨-, n, rfl, -⟩ := refused fails
      exact ⟨_, n, c', fails⟩
  · rcases Action.answers_or_fails (declare resource) c with ⟨⟨⟩, c', answers⟩ | ⟨e, c', fails⟩
    · exact ⟨c', answers⟩
    · obtain ⟨-, n, -, twice⟩ := refused fails
      exact absurd ⟨n, twice⟩ once

/-- A resource with a field and an earlier relationship, below resources that both declare `code`. -/
def fieldAndSide (field side : String) : Resource where
  name := "Leaf"
  parent := some "Middle"
  properties := [⟨field, 5, .field { storage := .integer }⟩,
    ⟨side, 4, .relationship (.new .manyToOne "Base")⟩]

/-- One and the same name is refused where the resource declares it twice, and not where its ancestors
do so many times. -/
theorem declare_refuses_duplicates_code :
    (∃ about n c', (declare (fieldAndSide "code" "code")).Fails
      ((new {}).serve (baseAgain.map .request)) (.duplicateProperty about n) c') ∧
    ∃ c', (declare (fieldAndSide "code" "base")).Answers
      ((new {}).serve (baseAgain.map .request)) () c' := by
  have declared : ∀ request ∈ baseAgain, ∀ k, request ≠ .configure k := by
    simp [baseAgain, baseAndMiddle]
  have builtIn : ∀ k ∈ ((new {}).serve (baseAgain.map .request)).configurators, k = .primaryKey :=
    builtIn_run {} declared
  have walks : ∀ field side, ∃ chain, ancestors ((new {}).serve (baseAgain.map .request)).resources
      (fieldAndSide field side) = .ok chain := by
    intro field side
    have ends : (ancestors ((new {}).serve (baseAgain.map .request)).resources
        (fieldAndSide field side)).isOk = true := by cbv
    cases walk : ancestors ((new {}).serve (baseAgain.map .request)).resources
        (fieldAndSide field side) with
    | ok chain => exact ⟨chain, rfl⟩
    | error e =>
        rw [walk] at ends
        cases ends
  obtain ⟨chain, walked⟩ := walks "code" "code"
  obtain ⟨chain', walked'⟩ := walks "code" "base"
  constructor
  · exact (declare_refuses_duplicates {} _ _ rfl builtIn (fieldAndSide "code" "code") (by cbv)
      (by simp [fieldAndSide]; cbv) chain walked).1.2 ⟨"code", by decide⟩
  · exact (declare_refuses_duplicates {} _ _ rfl builtIn (fieldAndSide "code" "base") (by cbv)
      (by simp [fieldAndSide]; cbv) chain' walked').2.1.2 (by
        rw [List.exists_duplicate_iff_not_nodup]
        decide)

end Compiler

end ResourceTables
