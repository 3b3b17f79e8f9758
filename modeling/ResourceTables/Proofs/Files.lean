/-
# `ResourceTables.Proofs.Files` — declaring a file never breaks the hierarchy

A file is declared into whatever is registered already, and a name of the file may stand there for a
resource with another parent, or with subclasses above which the file puts it.  While the file is
declared, old and new resources stand side by side, and their lines of parents may meet.

What helps is the order.  A parent is declared before its subclasses, so the line above a definition
runs through resources of this file only, and these are not declared again.
-/
import ResourceTables.Proofs.Hierarchy
import ResourceTables.Proofs.Identifiers

namespace ResourceTables

/-! ## Lines within a file -/

namespace Ancestry

variable {resources : Roster Resource} {resource : Resource} {names : List String}

/-- From each of some names a line goes up to its end, through these names only. -/
def Settled (resources : Roster Resource) (names : List String) : Prop :=
  ∀ n ∈ names, ∃ chain, Line resources (some n) chain ∧ ∀ r ∈ chain, r.name ∈ names

namespace Settled

/-- A resource without a parent, or with a settled one, has a line above it that is settled. -/
theorem exists_above (settled : Settled resources names)
    (early : ∀ p, resource.parent = some p → p ∈ names) :
    ∃ chain, Line resources resource.parent chain ∧ ∀ r ∈ chain, r.name ∈ names := by
  cases up : resource.parent with
  | none => exact ⟨[], .root, by simp⟩
  | some p => exact settled p (early p up)

/-- If its name is new, its line can be walked. -/
theorem exists_ancestors (settled : Settled resources names)
    (early : ∀ p, resource.parent = some p → p ∈ names) (new : resource.name ∉ names) :
    ∃ chain, ancestors resources resource = .ok chain := by
  obtain ⟨chain, line, inside⟩ := settled.exists_above early
  refine ⟨chain, line.chainFrom_eq fun r mem met => new ?_⟩
  exact List.mem_singleton.1 met ▸ inside r mem

/-- Registered, it is settled with the others. -/
theorem insert (settled : Settled resources names)
    (early : ∀ p, resource.parent = some p → p ∈ names) (new : resource.name ∉ names) :
    Settled (resources.insert resource.name resource) (names ++ [resource.name]) := by
  have apart : ∀ {chain : List Resource}, (∀ r ∈ chain, r.name ∈ names) →
      resource.name ∉ chain.map (·.name) := by
    intro chain inside mem
    obtain ⟨r, there, same⟩ := List.mem_map.1 mem
    exact new (same ▸ inside r there)
  refine List.forall_mem_append.2 ⟨?_, List.forall_mem_singleton.2 ?_⟩
  · intro n mem
    obtain ⟨chain, line, inside⟩ := settled n mem
    exact ⟨chain, line.insert (apart inside), fun r there => List.mem_append_left _ (inside r there)⟩
  · obtain ⟨chain, line, inside⟩ := settled.exists_above early
    have here : (resources.insert resource.name resource).get? resource.name = some resource := by
      rw [Roster.get?_insert, if_pos rfl]
    refine ⟨resource :: chain, .step here (line.insert (apart inside)), ?_⟩
    refine List.forall_mem_cons.2 ⟨List.mem_append_right _ (List.mem_singleton.2 rfl), ?_⟩
    exact fun r there => List.mem_append_left _ (inside r there)

end Settled

/-- Each resource has a name that is new, and no parent or one that comes before it. -/
def ParentsFirst (resources : List Resource) : Prop :=
  ∀ before r after, resources = before ++ r :: after →
    (∀ p, r.parent = some p → p ∈ before.map (·.name)) ∧ r.name ∉ before.map (·.name)

end Ancestry

/-! ## What a file means -/

section Checks

variable {α β : Type} {x : Except Error α} {f : α → Except Error β} {a : α} {b : β} {e : Error}

theorem bind_eq_ok : (x >>= f) = .ok b ↔ ∃ a, x = .ok a ∧ f a = .ok b := by
  cases x <;> simp [Bind.bind, Except.bind]

theorem pure_eq_ok {a' : α} : (pure a : Except Error α) = .ok a' ↔ a = a' := by
  simp [pure, Except.pure]

theorem throw_ne_ok : (throw e : Except Error α) ≠ .ok a := by
  simp [throw, throwThe, MonadExceptOf.throw]

end Checks

namespace Definition

variable {d : Definition} {created : Nat} {r : Resource}

theorem exists_toResource (known : ∀ g, d.generatorName = some g → Naming.isKnownGenerator g = true) :
    ∃ r, d.toResource created = .ok r := by
  unfold toResource
  cases asked : d.generatorName with
  | none => exact ⟨_, rfl⟩
  | some g =>
      obtain ⟨generator, found⟩ := Compiler.exists_generatorNamed (known g asked)
      simp only [Option.mapM_some, found]
      exact ⟨_, rfl⟩

/-- What is meant has the name and the parent that are written down. -/
theorem name_parent_of_toResource (meant : d.toResource created = .ok r) :
    r.name = d.name ∧ r.parent = d.parent := by
  obtain ⟨_, _, rest⟩ := bind_eq_ok.1 meant
  obtain rfl := pure_eq_ok.1 rest
  exact ⟨rfl, rfl⟩

end Definition

namespace Declarations

open Ancestry

variable {file : Declarations} {ds : List Definition} {rs : List Resource} {created : Nat}
  {d : Definition} {names seen : List String}

theorem nodup_of_repeatedName? (h : repeatedName? seen names = none) :
    names.Nodup ∧ ∀ n ∈ names, n ∉ seen := by
  fun_induction repeatedName? seen names with
  | case1 => exact ⟨List.nodup_nil, by simp⟩
  | case2 => cases h
  | case3 seen name rest unseen ih =>
      obtain ⟨distinct, apart⟩ := ih h
      refine ⟨List.nodup_cons.2 ⟨fun mem => apart name mem List.mem_cons_self, distinct⟩, ?_⟩
      refine List.forall_mem_cons.2 ⟨by simpa using unseen, fun n mem old => ?_⟩
      exact apart n mem (List.mem_cons_of_mem _ old)

theorem checkDefinition_eq_ok :
    checkDefinition names d = .ok () ↔
      (∀ p, d.parent = some p → p ∈ names) ∧
        ∀ g, d.generatorName = some g → Naming.isKnownGenerator g = true := by
  unfold checkDefinition
  cases d.parent with
  | none =>
      cases d.generatorName with
      | none => simp [pure_eq_ok]
      | some g =>
          by_cases known : Naming.isKnownGenerator g <;> simp [known, pure_eq_ok, throw_ne_ok]
  | some p =>
      by_cases mem : p ∈ names
      · cases d.generatorName with
        | none => simp [mem, pure_eq_ok]
        | some g =>
            by_cases known : Naming.isKnownGenerator g <;>
              simp [mem, known, pure_eq_ok, throw_ne_ok]
      · simp [mem, bind_eq_ok, throw_ne_ok]

theorem validate_eq_ok :
    file.validate = .ok () ↔ file.resources ≠ [] ∧ repeatedName? [] file.names = none
      ∧ ∀ d ∈ file.resources, checkDefinition file.names d = .ok () := by
  unfold validate
  by_cases empty : file.resources = []
  · simp [empty, bind_eq_ok, throw_ne_ok]
  · cases twice : repeatedName? [] file.names with
    | some n => simp [empty, bind_eq_ok, throw_ne_ok]
    | none =>
        simp only [List.isEmpty_iff, empty, if_false, ne_eq, not_false_eq_true, true_and]
        exact Binding.forM_eq_ok

/-- The resources that definitions mean, the first property made at time `created`. -/
def meanings (created : Nat) : List Definition → Except Error (List Resource)
  | [] => return []
  | d :: rest => return (← d.toResource created) :: (← meanings (created + d.size) rest)

theorem meanings_cons_eq_ok {rest : List Definition} :
    meanings created (d :: rest) = .ok rs ↔
      ∃ r others, d.toResource created = .ok r ∧ meanings (created + d.size) rest = .ok others
        ∧ r :: others = rs := by
  simp only [meanings, bind_eq_ok, pure_eq_ok]
  constructor
  · rintro ⟨r, meant, others, later, rfl⟩
    exact ⟨r, others, meant, later, rfl⟩
  · rintro ⟨r, others, meant, later, rfl⟩
    exact ⟨r, meant, others, later, rfl⟩

theorem exists_meanings (created : Nat) (known : ∀ d ∈ ds, ∀ g, d.generatorName = some g →
      Naming.isKnownGenerator g = true) :
    ∃ rs, meanings created ds = .ok rs := by
  induction ds generalizing created with
  | nil => exact ⟨[], rfl⟩
  | cons d rest ih =>
      obtain ⟨here, others⟩ := List.forall_mem_cons.1 known
      obtain ⟨r, meant⟩ := Definition.exists_toResource here
      obtain ⟨rs, later⟩ := ih (created + d.size) others
      exact ⟨r :: rs, meanings_cons_eq_ok.2 ⟨r, rs, meant, later, rfl⟩⟩

theorem exists_of_meanings (meant : meanings created ds = .ok rs) (mem : d ∈ ds) :
    ∃ r ∈ rs, ∃ t, d.toResource t = .ok r := by
  induction ds generalizing created rs with
  | nil => cases mem
  | cons first rest ih =>
      obtain ⟨r, others, here, later, rfl⟩ := meanings_cons_eq_ok.1 meant
      rcases List.mem_cons.1 mem with rfl | mem
      · exact ⟨r, List.mem_cons_self, created, here⟩
      · obtain ⟨r', inside, found⟩ := ih later mem
        exact ⟨r', List.mem_cons_of_mem _ inside, found⟩

/-- Names and parents are those that are written down. -/
theorem map_name_parent_of_meanings (meant : meanings created ds = .ok rs) :
    rs.map (fun r => (r.name, r.parent)) = ds.map fun d => (d.name, d.parent) := by
  induction ds generalizing created rs with
  | nil =>
      obtain rfl := pure_eq_ok.1 meant
      rfl
  | cons d rest ih =>
      obtain ⟨r, others, here, later, rfl⟩ := meanings_cons_eq_ok.1 meant
      obtain ⟨name, parent⟩ := Definition.name_parent_of_toResource here
      rw [List.map_cons, List.map_cons, ih later, name, parent]

theorem isReady_iff {placed : List String} :
    isReady placed d = true ↔ ∀ p, d.parent = some p → p ∈ placed := by
  unfold isReady
  cases d.parent <;> simp

theorem isReady_mono (d : Definition) (more less : List String) (sub : less ⊆ more)
    (ready : isReady less d = true) : isReady more d = true :=
  isReady_iff.2 fun p up => sub (isReady_iff.1 ready p up)

/-- A parent comes before its subclasses. -/
theorem parent_mem_of_inOrder {before after : List Definition} {p : String}
    (placed : file.inOrder = .ok (before ++ d :: after)) (up : d.parent = some p) :
    p ∈ before.map (·.name) :=
  isReady_iff.1 (ready_inRounds isReady_mono (congrArg Prod.fst (inOrder_eq_ok.1 placed))) p up

/-- The resources of an accepted file come with their parents first. -/
theorem parentsFirst_of_inOrder {ordered : List Definition} (accepted : file.validate = .ok ())
    (placed : file.inOrder = .ok ordered) (meant : meanings created ordered = .ok rs) :
    ParentsFirst rs := by
  have distinct : (ordered.map (·.name)).Nodup :=
    ((perm_of_inOrder placed).map _).nodup_iff.2
      (nodup_of_repeatedName? (validate_eq_ok.1 accepted).2.1).1
  have same := map_name_parent_of_meanings meant
  rintro before r after rfl
  rw [List.map_append, List.map_cons] at same
  obtain ⟨front, back, rfl, sameFront, sameBack⟩ := List.map_eq_append_iff.1 same.symm
  obtain ⟨d, rest, rfl, here, _⟩ := List.map_eq_cons_iff.1 sameBack
  obtain ⟨name, parent⟩ := Prod.mk.inj here
  have names : front.map (·.name) = before.map (·.name) := by
    simpa [Function.comp_def] using congrArg (List.map Prod.fst) sameFront
  rw [← names, ← name, ← parent]
  constructor
  · exact fun p => parent_mem_of_inOrder placed
  · rw [List.map_append, List.map_cons] at distinct
    exact fun twice => List.disjoint_of_nodup_append distinct twice List.mem_cons_self

end Declarations

/-! ## Declaring what is meant -/

namespace Compiler

open Ancestry Declarations

variable {c c' : Compiler} {file : Declarations} {ds ordered : List Definition}
  {rs rs' : List Resource} {created : Nat} {e : Error}

/-- Definitions are declared as the resources that they mean are, one after another. -/
theorem answers_declareEach (meant : meanings created ds = .ok rs) :
    (declareEach created ds).Answers c rs' c' ↔ rs = rs' ∧ (forM rs declare).Answers c ⟨⟩ c' := by
  induction ds generalizing created rs rs' c c' with
  | nil =>
      obtain rfl := pure_eq_ok.1 meant
      simp [declareEach]
  | cons d rest ih =>
      obtain ⟨r, others, here, later, rfl⟩ := meanings_cons_eq_ok.1 meant
      simp only [declareEach, here, Action.answers_bind, Action.answers_forM_cons, ih later,
        Action.answers_ofExcept, Action.answers_pure]
      constructor
      · rintro ⟨_, _, ⟨⟨⟩, rfl⟩, _, c₁, one, _, _, ⟨rfl, more⟩, rfl, rfl⟩
        exact ⟨rfl, c₁, one, more⟩
      · rintro ⟨rfl, c₁, one, more⟩
        exact ⟨r, c, ⟨rfl, rfl⟩, ⟨⟩, c₁, one, others, c', ⟨rfl, more⟩, rfl, rfl⟩

theorem fails_declareEach (meant : meanings created ds = .ok rs) :
    (declareEach created ds).Fails c e c' ↔ (forM rs declare).Fails c e c' := by
  induction ds generalizing created rs c with
  | nil =>
      obtain rfl := pure_eq_ok.1 meant
      simp [declareEach]
  | cons d rest ih =>
      obtain ⟨r, others, here, later, rfl⟩ := meanings_cons_eq_ok.1 meant
      simp only [declareEach, here, Action.fails_bind, Action.fails_forM_cons, ih later,
        Action.answers_ofExcept, Action.fails_ofExcept, Action.fails_pure]
      constructor
      · rintro (⟨⟨⟩, _⟩ | ⟨_, _, ⟨⟨⟩, rfl⟩, failed | ⟨_, c₁, one, failed | ⟨_, _, _, never⟩⟩⟩)
        · exact .inl failed
        · exact .inr ⟨c₁, one, failed⟩
        · exact never.elim
      · rintro (failed | ⟨c₁, one, failed⟩)
        · exact .inr ⟨r, c, ⟨rfl, rfl⟩, .inl failed⟩
        · exact .inr ⟨r, c, ⟨rfl, rfl⟩, .inr ⟨⟨⟩, c₁, one, .inl failed⟩⟩

/-- The compiler has its built-in configurator at most, the resources `done` are registered, and the
lines above them run through themselves. -/
structure Carries (c : Compiler) (done : List Resource) : Prop where
  builtIn : ∀ k ∈ c.configurators, k = .primaryKey
  settled : Settled c.resources (done.map (·.name))
  registered : ∀ r ∈ done, c.resources.get? r.name = some r

section Carrying

variable {done rest : List Resource} {r : Resource}

/-- The next resource takes no name of those before it, so these stay as they are. -/
theorem Carries.declare (carries : c.Carries done) (first : ParentsFirst (done ++ r :: rest))
    (answers : (declare r).Answers c ⟨⟩ c') : c'.Carries (done ++ [r]) := by
  obtain ⟨early, new⟩ := first done r rest rfl
  obtain ⟨d, _, _, rfl⟩ := answers_declare.1 answers
  refine ⟨carries.builtIn, ?_, List.forall_mem_append.2 ⟨?_, List.forall_mem_singleton.2 ?_⟩⟩
  · rw [List.map_append, List.map_singleton]
    exact carries.settled.insert early new
  · intro r' mem
    have other : r'.name ≠ r.name := fun same => new (List.mem_map.2 ⟨r', mem, same⟩)
    have kept := Roster.get?_insert c.resources r.name r'.name r
    rw [if_neg other, carries.registered r' mem] at kept
    exact kept
  · have put := Roster.get?_insert c.resources r.name r.name r
    rwa [if_pos rfl] at put

/-- It is refused for its own names and properties only: the line above it can be walked, and the
built-in configurator does not fail. -/
theorem Carries.refused (carries : c.Carries done) (first : ParentsFirst (done ++ r :: rest))
    (fails : (Compiler.declare r).Fails c e c') :
    (∃ kind name, e = .invalidIdentifier kind name) ∨
      ∃ about property, e = .duplicateProperty about property := by
  cases names : checkNames r with
  | error e' =>
      have refused := fails_declare_of_checkNames (c := c) names
      obtain rfl : e = e' := Except.error.inj (fails.1.symm.trans refused.1)
      exact .inl (invalidIdentifier_of_checkNames names)
  | ok _ =>
      obtain ⟨early, new⟩ := first done r rest rfl
      obtain ⟨chain, walked⟩ := carries.settled.exists_ancestors early new
      rcases refused_cases names fails with broken | ⟨_, twice | ⟨k, mem, d, d', failed⟩⟩
      · rw [walked] at broken
        cases broken
      · exact .inr twice
      · rw [carries.builtIn k mem] at failed
        exact absurd failed Configurator.not_fails_addPrimaryKey

theorem carries_nil (builtIn : ∀ k ∈ c.configurators, k = .primaryKey) : c.Carries [] :=
  ⟨builtIn, by simp [Settled], by simp⟩

theorem carries_of_forM (builtIn : ∀ k ∈ c.configurators, k = .primaryKey) (first : ParentsFirst rs)
    (h : (forM rs Compiler.declare).Answers c ⟨⟩ c') : c'.Carries rs := by
  refine h.forM_induction (I := fun done t => t.Carries done) (carries_nil builtIn) ?_
  rintro done r rest t t' rfl carries one
  exact carries.declare first one

theorem refused_of_forM (builtIn : ∀ k ∈ c.configurators, k = .primaryKey) (first : ParentsFirst rs)
    (h : (forM rs Compiler.declare).Fails c e c') :
    (∃ kind name, e = .invalidIdentifier kind name) ∨
      ∃ about property, e = .duplicateProperty about property := by
  have next : ∀ done r rest t t', rs = done ++ r :: rest → Carries t done →
      (Compiler.declare r).Answers t ⟨⟩ t' → t'.Carries (done ++ [r]) := by
    rintro done r rest t t' rfl carries one
    exact carries.declare first one
  obtain ⟨done, r, rest, t, rfl, carries, failed⟩ :=
    h.forM_induction (I := fun done t => t.Carries done) (carries_nil builtIn) next
  exact carries.refused first failed

end Carrying

/-! ## Files -/

theorem fails_declareAll_of_validate (rejected : file.validate = .error e) :
    (declareAll created file).Fails c e c :=
  Action.fails_bind.2 (.inl (Action.fails_ofExcept.2 ⟨rejected, rfl⟩))

theorem fails_declareAll_of_inOrder (accepted : file.validate = .ok ())
    (rejected : file.inOrder = .error e) : (declareAll created file).Fails c e c := by
  refine Action.fails_bind.2 (.inr ⟨(), c, Action.answers_ofExcept.2 ⟨accepted, rfl⟩, ?_⟩)
  exact Action.fails_bind.2 (.inl (Action.fails_ofExcept.2 ⟨rejected, rfl⟩))

section Accepted

variable (accepted : file.validate = .ok ()) (placed : file.inOrder = .ok ordered)
  (meant : meanings created ordered = .ok rs)

include accepted placed meant

theorem answers_declareAll :
    (declareAll created file).Answers c rs' c' ↔ rs = rs' ∧ (forM rs declare).Answers c ⟨⟩ c' := by
  rw [← answers_declareEach meant]
  simp only [declareAll, accepted, placed, Action.answers_bind, Action.answers_ofExcept,
    Action.answers_note, Action.answers_pure]
  constructor
  · rintro ⟨_, _, ⟨_, rfl⟩, _, _, ⟨⟨⟩, rfl⟩, _, _, all, _, _, rfl, rfl, rfl⟩
    exact all
  · exact fun all => ⟨⟨⟩, c, ⟨trivial, rfl⟩, ordered, c, ⟨rfl, rfl⟩, rs', c', all, ⟨⟩, c', rfl, rfl, rfl⟩

theorem fails_declareAll :
    (declareAll created file).Fails c e c' ↔ (forM rs declare).Fails c e c' := by
  rw [← fails_declareEach meant]
  simp only [declareAll, accepted, placed, Action.fails_bind, Action.answers_ofExcept,
    Action.fails_ofExcept, Action.fails_note, Action.fails_pure]
  constructor
  · rintro (⟨⟨⟩, _⟩ | ⟨_, _, ⟨_, rfl⟩, ⟨⟨⟩, _⟩ | ⟨_, _, ⟨⟨⟩, rfl⟩, failed | ⟨_, _, _, never⟩⟩⟩)
    · exact failed
    · simp at never
  · exact fun failed => .inr ⟨⟨⟩, c, ⟨trivial, rfl⟩, .inr ⟨ordered, c, ⟨rfl, rfl⟩, .inl failed⟩⟩

end Accepted

/-- Whatever is registered, a file that is not accepted, or that has a cycle of parents, changes
nothing.  Any other is declared as the resources that it means are, one after another in their order.
With the built-in configurator at most, this fails only for a name that is no identifier or a property
that is entered twice, and where it succeeds, each definition of the file means the resource that is
registered under its name, with the parent that is written down. -/
theorem declareAll_keeps_hierarchy (c : Compiler) (builtIn : ∀ k ∈ c.configurators, k = .primaryKey)
    (created : Nat) (file : Declarations) :
    (∀ e, file.validate = .error e → (declareAll created file).Fails c e c) ∧
    (∀ e, file.validate = .ok () → file.inOrder = .error e → (declareAll created file).Fails c e c) ∧
    ∀ ordered, file.validate = .ok () → file.inOrder = .ok ordered →
      ∃ rs, meanings created ordered = .ok rs ∧
        (∀ rs' c', (declareAll created file).Answers c rs' c' ↔
          rs = rs' ∧ (forM rs declare).Answers c ⟨⟩ c') ∧
        (∀ e c', (declareAll created file).Fails c e c' ↔ (forM rs declare).Fails c e c') ∧
        (∀ e c', (declareAll created file).Fails c e c' →
          (∃ kind name, e = .invalidIdentifier kind name) ∨
            ∃ about property, e = .duplicateProperty about property) ∧
        ∀ rs' c', (declareAll created file).Answers c rs' c' → ∀ d ∈ file.resources,
          ∃ r ∈ rs', (∃ t, d.toResource t = .ok r) ∧ c'.resources.get? d.name = some r
            ∧ r.parent = d.parent := by
  refine ⟨fun e => fails_declareAll_of_validate, fun e => fails_declareAll_of_inOrder, ?_⟩
  intro ordered accepted placed
  have perm := perm_of_inOrder placed
  obtain ⟨_, _, checked⟩ := validate_eq_ok.1 accepted
  obtain ⟨rs, meant⟩ := exists_meanings created fun d (mem : d ∈ ordered) =>
    (checkDefinition_eq_ok.1 (checked d (perm.subset mem))).2
  have first := parentsFirst_of_inOrder accepted placed meant
  refine ⟨rs, meant, fun rs' c' => answers_declareAll accepted placed meant,
    fun e c' => fails_declareAll accepted placed meant, ?_, ?_⟩
  · intro e c' failed
    exact refused_of_forM builtIn first ((fails_declareAll accepted placed meant).1 failed)
  · intro rs' c' answers d mem
    obtain ⟨rfl, all⟩ := (answers_declareAll accepted placed meant).1 answers
    have carries := carries_of_forM builtIn first all
    obtain ⟨r, inside, t, here⟩ := exists_of_meanings meant (perm.symm.subset mem)
    obtain ⟨name, parent⟩ := Definition.name_parent_of_toResource here
    exact ⟨r, inside, ⟨t, here⟩, name ▸ carries.registered r inside, parent⟩

/-- A file that puts the entries of `pedigree` below its comments, the other way round. -/
def entriesBelow : Declarations :=
  { resources := [{ name := "Entry", parent := some "Comment" }, { name := "Comment" }] }

/-- A file whose resources are below each other. -/
def entriesAround : Declarations :=
  { resources := [{ name := "Entry", parent := some "Comment" },
      { name := "Comment", parent := some "Entry" }] }

theorem declareAll_keeps_hierarchy_entries :
    (∀ k ∈ ((new {}).run pedigree).configurators, k = .primaryKey) ∧
    entriesBelow.validate = .ok () ∧ entriesBelow.inOrder = .ok entriesBelow.resources.reverse ∧
    (∃ rs c', (declareAll 0 entriesBelow).Answers ((new {}).run pedigree) rs c'
      ∧ ∃ r ∈ rs, c'.resources.get? "Entry" = some r ∧ r.parent = some "Comment") ∧
    ∃ e, (declareAll 0 entriesAround).Fails ((new {}).run pedigree) e ((new {}).run pedigree) := by
  have builtIn : ∀ k ∈ ((new {}).run pedigree).configurators, k = .primaryKey := by
    intro k mem
    rcases configurators_run {} pedigree k mem with same | ⟨_, asked, _⟩
    · exact same
    · simp [pedigree] at asked
  have accepted : entriesBelow.validate = .ok () := by decide
  have placed : entriesBelow.inOrder = .ok entriesBelow.resources.reverse := by cbv
  have around : entriesAround.inOrder = .error (.invalidDeclarations
      "Inheritance cycle between resources: [\"Entry\", \"Comment\"]") := by cbv
  obtain ⟨rs, c', answers⟩ := Action.exists_answers_of_isOk
    (x := declareAll 0 entriesBelow) (s := (new {}).run pedigree) (by cbv)
  obtain ⟨_, _, good⟩ := declareAll_keeps_hierarchy _ builtIn 0 entriesBelow
  obtain ⟨_, bad, _⟩ := declareAll_keeps_hierarchy _ builtIn 0 entriesAround
  obtain ⟨_, _, _, _, _, registered⟩ := good _ accepted placed
  obtain ⟨r, mem, _, found, parent⟩ := registered rs c' answers _ List.mem_cons_self
  exact ⟨builtIn, accepted, placed, ⟨rs, c', answers, r, mem, found, parent⟩, _,
    bad _ (by decide) around⟩

end Compiler

end ResourceTables
