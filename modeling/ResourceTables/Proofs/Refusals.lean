/-
# `ResourceTables.Proofs.Refusals` — what a declaration is refused for

A declaration is refused for the first of four reasons: a name that is no identifier, a line of parents
that cannot be walked, a property that is entered twice, or a configurator that fails.  The built-in
configurator never does, since it looks whether the name of the key is taken before it enters it.
-/
import ResourceTables.Proofs.Histories

namespace ResourceTables

/-- A check of every element of a list fails as it does on one of them. -/
theorem exists_of_forM_error {α : Type} {f : α → Except Error PUnit} {xs : List α} {e : Error}
    (h : xs.forM f = .error e) : ∃ x ∈ xs, f x = .error e := by
  rw [List.forM_eq_forM] at h
  induction xs with
  | nil => cases h
  | cons x rest ih =>
      rw [List.forM_cons] at h
      cases one : f x with
      | error e' =>
          rw [one] at h
          cases h
          exact ⟨x, List.mem_cons_self, one⟩
      | ok _ =>
          rw [one] at h
          obtain ⟨y, mem, failed⟩ := ih h
          exact ⟨y, List.mem_cons_of_mem _ mem, failed⟩

/-! ## Configurators -/

namespace Configurator

variable {settings : Settings} {d d' : Descriptor} {e : Error}

/-- Configurators fail together as one of them does. -/
theorem fails_applyAll {ks : List Configurator} (h : (applyAll settings ks).Fails d e d') :
    ∃ k ∈ ks, ∃ d₁ d₂, (k.configure settings).Fails d₁ e d₂ := by
  induction ks generalizing d with
  | nil => exact absurd h Action.fails_pure
  | cons k rest ih =>
      rw [applyAll, Action.fails_read_bind, Action.fails_note_bind] at h
      rcases Action.fails_bind.1 h with here | ⟨_, d₁, _, later⟩
      · exact ⟨k, List.mem_cons_self, d, d', here⟩
      · obtain ⟨k', mem, failed⟩ := ih later
        exact ⟨k', List.mem_cons_of_mem _ mem, failed⟩

/-- Putting a field before the others fails only if its name is taken. -/
theorem not_fails_prependField {name : String} {field : Field} (free : d.hasProperty name = false) :
    ¬ (Descriptor.prependField name field).Fails d e d' := by
  have none : d.declaredBy? name = none := by
    rw [Descriptor.hasProperty] at free
    simpa using free
  rw [Descriptor.prependField, Action.fails_read_bind, none]
  exact Action.fails_change

/-- Giving a resource a primary key never fails. -/
theorem not_fails_addPrimaryKey : ¬ (addPrimaryKey settings).Fails d e d' := by
  rw [addPrimaryKey, Action.fails_read_bind]
  by_cases needs : needsPrimaryKey d
  · by_cases taken : d.hasProperty settings.primaryKeyColumn
    · simp [needs, taken]
    · rw [Bool.not_eq_true] at taken
      simp [needs, taken, not_fails_prependField taken]
  · simp [needs]

end Configurator

/-! ## Lines of parents -/

namespace Ancestry

variable {resources : Roster Resource} {resource : Resource} {chain : List Resource} {e : Error}

/-- A walk along parents fails for the hierarchy, in the name of the resource whose line it is. -/
theorem brokenHierarchy_of_chainFrom {name : String} {seen : List String} {parent : Option String}
    (h : chainFrom resources name seen parent = .error e) :
    ∃ reason, e = .brokenHierarchy name reason := by
  fun_induction chainFrom resources name seen parent generalizing e with
  | case1 => cases h
  | case2 =>
      cases h
      exact ⟨_, rfl⟩
  | case3 =>
      cases h
      exact ⟨_, rfl⟩
  | case4 => cases h
  | case5 seen first new found there e' ends ih =>
      cases h
      exact ih ends

/-- Methods are collected wherever the line can be walked. -/
theorem exists_collectMethods (known : ancestors resources resource = .ok chain) :
    ∃ methods, collectMethods resources resource = .ok methods := by
  unfold collectMethods
  rw [known]
  exact ⟨_, rfl⟩

end Ancestry

/-- A list of properties is refused at one that is entered twice. -/
theorem Descriptor.duplicateProperty_of_register {ps : List CollectedProperty} {d d' : Descriptor}
    {e : Error} (h : (forM ps register).Fails d e d') :
    ∃ resource property, e = .duplicateProperty resource property := by
  obtain ⟨_, p, _, t, _, _, failed⟩ :=
    h.forM_induction (I := fun _ _ => True) trivial fun _ _ _ _ _ _ _ _ => trivial
  exact ⟨t.resource, p.name, (fails_register.1 failed).2.1.symm⟩

/-! ## Declarations -/

namespace Compiler

variable {c c' : Compiler} {resource : Resource} {d d₀ : Descriptor} {e : Error}

theorem invalidIdentifier_of_checkNames (h : checkNames resource = .error e) :
    ∃ kind name, e = .invalidIdentifier kind name := by
  have check : ∀ kind name, Naming.checkIdentifier kind name = .error e →
      ∃ kind name, e = .invalidIdentifier kind name := by
    intro kind name failed
    unfold Naming.checkIdentifier at failed
    split at failed
    · cases failed
    · cases failed
      exact ⟨kind, name, rfl⟩
  unfold checkNames at h
  cases first : Naming.checkIdentifier "resource" resource.name with
  | error e' =>
      rw [first] at h
      cases h
      exact check _ _ first
  | ok _ =>
      rw [first] at h
      obtain ⟨p, _, failed⟩ := exists_of_forM_error h
      exact check _ _ failed

/-- Names that are no identifiers are refused before anything else is looked at. -/
theorem fails_declare_of_checkNames (refused : checkNames resource = .error e) :
    (declare resource).Fails c e c := by
  refine Action.fails_bind.2 (.inl (Action.fails_bind.2 (.inr ⟨c, c, ?_, ?_⟩)))
  · exact Action.answers_read.2 ⟨rfl, rfl⟩
  · exact Action.fails_bind.2 (.inl (Action.fails_ofExcept.2 ⟨refused, rfl⟩))

/-- A descriptor is not filled because of the line of parents, a property that is entered twice, or a
configurator. -/
theorem fails_fill (h : (c.fill resource).Fails d₀ e d) :
    Ancestry.ancestors c.resources resource = .error e ∨
    ∃ chain, Ancestry.ancestors c.resources resource = .ok chain ∧
      ((forM (Ancestry.inherited chain ++ Ancestry.own resource) Descriptor.register).Fails d₀ e d ∨
        ∃ k ∈ c.configurators, ∃ d₁ d₂, (k.configure c.settings).Fails d₁ e d₂) := by
  simp only [fill, Ancestry.collect, List.forM_eq_forM] at h
  cases known : Ancestry.ancestors c.resources resource with
  | error e' =>
      rw [known] at h
      rcases Action.fails_bind.1 h with failed | ⟨_, _, collected, _⟩
      · rcases Action.fails_bind.1 failed with walked | ⟨_, _, walked, _⟩
        · exact .inl (Action.fails_ofExcept.1 walked).1
        · cases (Action.answers_ofExcept.1 walked).1
      · obtain ⟨_, _, walked, _⟩ := Action.answers_bind.1 collected
        cases (Action.answers_ofExcept.1 walked).1
  | ok chain =>
      refine .inr ⟨chain, rfl, ?_⟩
      rw [known] at h
      rcases Action.fails_bind.1 h with failed | ⟨_, _, gathered, h⟩
      · rcases Action.fails_bind.1 failed with walked | ⟨_, _, _, never⟩
        · cases (Action.fails_ofExcept.1 walked).1
        · rw [Action.fails_note_bind] at never
          exact absurd never Action.fails_pure
      · obtain ⟨_, _, walked, gathered⟩ := Action.answers_bind.1 gathered
        obtain ⟨⟨⟩, rfl⟩ := Action.answers_ofExcept.1 walked
        rw [Action.answers_note_bind, Action.answers_pure] at gathered
        obtain ⟨rfl, rfl⟩ := gathered
        rcases Action.fails_bind.1 h with refused | ⟨_, _, _, h⟩
        · exact .inl refused
        · obtain ⟨methods, gathered⟩ := Ancestry.exists_collectMethods known
          rw [gathered] at h
          rcases Action.fails_bind.1 h with never | ⟨_, _, _, h⟩
          · cases (Action.fails_ofExcept.1 never).1
          · rw [Action.fails_change_bind] at h
            exact .inr (Configurator.fails_applyAll h)

theorem fails_fill_of_ancestors (unwalked : Ancestry.ancestors c.resources resource = .error e) :
    (c.fill resource).Fails d₀ e d₀ := by
  simp only [fill, Ancestry.collect, unwalked]
  exact Action.fails_bind.2 (.inl (Action.fails_bind.2 (.inl (Action.fails_ofExcept.2 ⟨rfl, rfl⟩))))

/-- Under identifiers the descriptor of a resource is missing just if it cannot be filled. -/
theorem fails_instrument_iff (names : checkNames resource = .ok ()) :
    (instrument resource).Fails c e c ↔
      ∃ d, (c.fill resource).Fails (Descriptor.ofResource resource) e d := by
  have unfilled : Action.Fails (fun s =>
      let done := c.fill resource (Descriptor.ofResource resource)
      ⟨done.result.map fun _ => done.state, s, done.notes⟩) c e c ↔
      ∃ d, (c.fill resource).Fails (Descriptor.ofResource resource) e d := by
    rcases h : c.fill resource (Descriptor.ofResource resource) with ⟨_ | _, d', notes⟩
    · simp [Action.Fails, h, Except.map]
    · simp [Action.Fails, h, Except.map]
  unfold instrument
  constructor
  · intro h
    rcases Action.fails_bind.1 h with none | ⟨_, _, one, h⟩
    · exact absurd none Action.fails_read
    · obtain ⟨rfl, rfl⟩ := Action.answers_read.1 one
      rcases Action.fails_bind.1 h with checked | ⟨_, _, checked, last⟩
      · rw [names] at checked
        cases (Action.fails_ofExcept.1 checked).1
      · obtain ⟨_, rfl⟩ := Action.answers_ofExcept.1 checked
        exact unfilled.1 last
  · intro h
    refine Action.fails_bind.2 (.inr ⟨c, c, Action.answers_read.2 ⟨rfl, rfl⟩, ?_⟩)
    exact Action.fails_bind.2 (.inr ⟨(), c, Action.answers_ofExcept.2 ⟨names, rfl⟩, unfilled.2 h⟩)

/-- A declaration under identifiers is refused just if its descriptor cannot be filled. -/
theorem fails_declare_iff (names : checkNames resource = .ok ()) :
    (declare resource).Fails c e c' ↔
      c = c' ∧ ∃ d, (c.fill resource).Fails (Descriptor.ofResource resource) e d := by
  constructor
  · intro h
    obtain rfl := fails_declare h
    refine ⟨rfl, (fails_instrument_iff names).1 ?_⟩
    rcases Action.fails_bind.1 h with one | ⟨d, s, one, other⟩
    · exact one
    · by_cases taken : s.resources.contains resource.name
      · simp [taken, register] at other
      · simp [taken, register] at other
  · rintro ⟨rfl, unfilled⟩
    exact Action.fails_bind.2 (.inl ((fails_instrument_iff names).2 unfilled))

/-- A declaration under identifiers whose line of parents can be walked is refused for a property that
is entered twice, or by a configurator. -/
theorem refused_cases (names : checkNames resource = .ok ()) (h : (declare resource).Fails c e c') :
    Ancestry.ancestors c.resources resource = .error e ∨
    (∃ chain, Ancestry.ancestors c.resources resource = .ok chain) ∧
      ((∃ about property, e = .duplicateProperty about property) ∨
        ∃ k ∈ c.configurators, ∃ d₁ d₂, (k.configure c.settings).Fails d₁ e d₂) := by
  obtain ⟨_, d, unfilled⟩ := (fails_declare_iff names).1 h
  refine (fails_fill unfilled).imp_right fun ⟨chain, known, refused⟩ => ⟨⟨chain, known⟩, ?_⟩
  exact refused.imp_left Descriptor.duplicateProperty_of_register

end Compiler

end ResourceTables
