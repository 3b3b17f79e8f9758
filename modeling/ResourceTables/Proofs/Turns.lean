/-
# `ResourceTables.Proofs.Turns` — what the turn of a member does to its keys

In its turn a member makes the key of every builder that is selected and has one to make.  Each of these
keys copies the primary key that its target has at that moment, which must not be empty; what joins the
member's own primary key makes it longer, so that a copy made before is a copy of a part.
-/
import ResourceTables.Proofs.Stops

namespace ResourceTables

/-! ## Names with keys -/

/-- The table of a name, as builders know it, has a primary key. -/
def HasKey (generated drafts : Roster Model) (n : String) : Prop :=
  ∃ t, knownTable generated drafts n = some t ∧ t.primaryKey ≠ []

theorem HasKey.grow {generated drafts drafts' : Roster Model} {n : String}
    (h : HasKey generated drafts n) (grown : DraftsGrow drafts drafts') :
    HasKey generated drafts' n := by
  obtain ⟨t, known, some⟩ := h
  obtain ⟨t', known', grows⟩ := grown.knownTable known
  refine ⟨t', known', fun none => some ?_⟩
  exact List.prefix_nil.1 (none ▸ grows.primaryKey)

theorem Elsewhere.knownTable {n k : String} {drafts drafts' : Roster Model}
    (h : Elsewhere n drafts drafts') (other : k ≠ n) (generated : Roster Model) :
    ResourceTables.knownTable generated drafts' k = ResourceTables.knownTable generated drafts k := by
  rw [ResourceTables.knownTable, ResourceTables.knownTable, h k other]

namespace RelationshipBuilder

variable {b : RelationshipBuilder} {r : Relationship} {owner target : Table}

theorem primaryKey_keyedTable (forces : b.forcesPrimaryKey = true) :
    (b.keyedTable r owner target).primaryKey
      = owner.primaryKey ++ target.primaryKey.map b.keyColumn := by
  have all : (target.primaryKey.map b.keyColumn).filter (·.isPrimaryKey)
      = target.primaryKey.map b.keyColumn := by
    refine List.filter_eq_self.2 fun column mem => ?_
    obtain ⟨k, _, rfl⟩ := List.mem_map.1 mem
    exact forces
  simp only [keyedTable, Table.primaryKey, List.filter_append]
  exact congrArg (owner.primaryKey ++ ·) all

end RelationshipBuilder

/-- A relationship that hosts a key has a builder that makes it. -/
theorem Descriptor.exists_side {d : Descriptor} (wf : d.WellFormed) (fresh : d.Fresh)
    {e : RelationshipEntry} (mem : e ∈ d.relationships) (hosts : e.relationship.hostsKey = true) :
    ∃ side : KeySide, side.relationship = e.relationship ∧ side.builder.name = e.name
      ∧ .relationship side.builder ∈ d.plan.builders
      ∧ side.builder.keyFor? d.view = some side.relationship := by
  obtain ⟨b, built, name⟩ := (wf.relationship_built e.name).2 (List.mem_map_of_mem mem)
  refine ⟨⟨b, e.relationship⟩, rfl, name, built, Builder.keyFor?_eq_some_iff.2 ⟨?_, ?_, hosts⟩⟩
  · have same := fresh _ built
    rw [Builder.reset, Builder.relationship.injEq] at same
    rw [← same]
    rfl
  · rw [view_relationship?]
    exact wf.relationship?_eq_some_iff.2 ⟨e, mem, name.symm, rfl⟩

/-- A side has made its key on the way from some drafts to others: what it found, and the table that it
left. -/
structure Copied (D : Roster Descriptor) (generated : Roster Model) (n : String)
    (first : Roster Model) (side : KeySide) (last : Roster Model) (before after : Roster Model)
    (owner target : Table) : Prop where
  inside : Inside D generated n first before
  here : knownTable generated before n = some owner
  there : knownTable generated before side.relationship.target = some target
  keyed : target.primaryKey ≠ []
  made : knownTable generated after n = some (side.builder.keyedTable side.relationship owner target)
  step : DraftsGrow before after
  grown : DraftsGrow after last

namespace Copied

variable {D : Roster Descriptor} {generated first last last' before after : Roster Model} {n : String}
  {side : KeySide} {owner target : Table}

theorem later (h : Copied D generated n first side last before after owner target)
    (grown : DraftsGrow last last') :
    Copied D generated n first side last' before after owner target :=
  ⟨h.inside, h.here, h.there, h.keyed, h.made, h.step, h.grown.trans grown⟩

/-- A target that is another resource had its key when the turn began. -/
theorem hasKey_before (h : Copied D generated n first side last before after owner target)
    (other : side.relationship.target ≠ n) : HasKey generated first side.relationship.target := by
  refine ⟨target, ?_, h.keyed⟩
  rw [← h.inside.elsewhere.knownTable other]
  exact h.there

/-- The member has a key when the turn ends, if the copy joins it. -/
theorem hasKey_owner (h : Copied D generated n first side last before after owner target)
    (forces : side.builder.forcesPrimaryKey = true) : HasKey generated last n := by
  refine .grow ⟨_, h.made, ?_⟩ h.grown
  rw [RelationshipBuilder.primaryKey_keyedTable forces]
  simp [h.keyed]

end Copied

/-! ## Turns -/

namespace Generation

variable {D : Roster Descriptor} {generated drafts : Roster Model} {names done : List String}
  {n : String} {d : Descriptor} {selected : Builder → Bool} {s₀ s s' : Roster Descriptor × Roster Model}
  {x : BuildSite → Action (Descriptor × Roster Model) Unit}
  {step : BuildSite → PropertyView → Action (Builder × Roster Model) Unit}

/-- A builder that answers leaves the drafts as they were, or it makes its key. -/
theorem idle_or_copied {first : Roster Model} {b : Builder} {s' : Builder × Roster Model}
    (inside : Inside D generated n first drafts) (member : n ∈ first.names)
    (one : (Builder.step .keyColumns { owner := n, generated } d.view).Answers (b, drafts) () s') :
    (b.keySide? d.view = none ∧ drafts = s'.2) ∨
    ∃ side, b.keySide? d.view = some side
      ∧ ∃ owner target, Copied D generated n first side s'.2 drafts s'.2 owner target := by
  have grown := (Builder.builds_step { owner := n, generated } d.view .keyColumns
    (s := (b, drafts)) inside.linked.distinct).2
  rw [one.2] at grown
  obtain ⟨owner, table, columns⟩ := inside.ownerTable member
  rcases (Builder.answers_step_keyColumns inside.linked.distinct table columns).1 one with
    ⟨none, rfl⟩ | ⟨side, target, has, known, keyed, _, rfl⟩
  · exact .inl ⟨none, rfl⟩
  · refine .inr ⟨side, has, owner, target, inside, ?_, known, keyed, ?_, grown, .refl _⟩
    · obtain ⟨m', found', table'⟩ := BuildSite.ownerTable_eq_ok.1 table
      exact (knownTable_of_draft found').trans table'
    · exact (Builder.knownTable_putOwnerTable table _ n).trans (if_pos rfl)

/-- A builder whose target has a key is not stopped for want of one. -/
theorem Stopped.ne_missing {side : KeySide} {before after : Roster Model} {e : Error}
    (stopped : Stopped D generated selected n d before side drafts e after)
    (key : HasKey generated drafts side.relationship.target) (table context : String) :
    e ≠ .missingPrimaryKey table context := by
  obtain ⟨t, known, some⟩ := key
  cases stopped.blocked with
  | tableless missing =>
      rw [targetTable_eq_ok_iff_known.2 known] at missing
      cases missing
  | keyless t' known' none =>
      obtain rfl : t = t' := Option.some.inj (known.symm.trans known')
      exact absurd none some
  | taken => exact nofun

namespace KeyPass

variable (pass : KeyPass selected x step)

include pass

/-- The turn of a member, one builder after another: a builder that is not selected or has no key to
make leaves the drafts as they were, every other one makes its key. -/
theorem turn_induction (old : ColumnsDistinct generated) (midway : Midway D generated s₀ done s)
    (known : n ∈ D.names) (member : n ∈ s₀.2.names) (found : s.1.get? n = some d)
    (one : (onMember n (x { owner := n, generated })).Answers s () s')
    {I : List Builder → Roster Model → Prop} (start : I [] s.2)
    (idle : ∀ past b drafts, (selected b = true → b.keySide? d.view = none) → I past drafts →
      I (past ++ [b]) drafts)
    (copy : ∀ past side rest drafts drafts' owner target,
      d.plan.builders = past ++ .relationship side.builder :: rest →
      selected (.relationship side.builder) = true →
      side.builder.keyFor? d.view = some side.relationship →
      Copied D generated n s.2 side drafts' drafts drafts' owner target → I past drafts →
      I (past ++ [.relationship side.builder]) drafts') :
    Inside D generated n s.2 s'.2 ∧ I d.plan.builders s'.2 := by
  obtain ⟨d₀, found₀⟩ := Roster.exists_get?_of_mem known
  obtain ⟨d₁, found₁, worked⟩ := midway.worked.get?_forward found₀
  obtain rfl : d = d₁ := Option.some.inj (found.symm.trans found₁)
  have here : n ∈ s.2.names := by
    rw [show s.2.names = s₀.2.names from Roster.Evolves.names_eq midway.grown]
    exact member
  obtain ⟨d', _, _, found', built, rfl⟩ := answers_onMember.1 one
  obtain rfl : d = d' := Option.some.inj (found.symm.trans found')
  obtain ⟨builders, _, each, same⟩ := (pass.answers _ _ _ _).1 built
  cases same
  refine each.onEach_induction
    (I := fun past drafts => Inside D generated n s.2 drafts ∧ I past drafts)
    ⟨.refl midway.linked n, start⟩ ?_
  rintro past b rest drafts b' drafts' split ⟨inside, holds⟩ made
  have inside' : Inside D generated n s.2 drafts' := by
    rw [worked.view_eq] at made
    exact pass.inside_step old found₀ here inside made
  refine ⟨inside', ?_⟩
  rcases (pass.selects _ _ _ _ _).1 made with ⟨chosen, done⟩ | ⟨skipped, same⟩
  · rcases idle_or_copied inside here done with ⟨none, rfl⟩ | ⟨side, has, owner, target, copied⟩
    · exact idle past b drafts (fun _ => none) holds
    · obtain ⟨rfl, wanted⟩ := Builder.keySide?_eq_some_iff.1 has
      exact copy past side rest drafts drafts' owner target split chosen wanted copied holds
  · cases same
    refine idle past b drafts (fun chosen => ?_) holds
    rw [chosen] at skipped
    cases skipped

/-- The turn of a member leaves the drafts linked, and changes only its own. -/
theorem inside_turn (old : ColumnsDistinct generated) (midway : Midway D generated s₀ done s)
    (known : n ∈ D.names) (member : n ∈ s₀.2.names)
    (one : (onMember n (x { owner := n, generated })).Answers s () s') :
    Inside D generated n s.2 s'.2 := by
  obtain ⟨d₀, found₀⟩ := Roster.exists_get?_of_mem known
  obtain ⟨d, found, _⟩ := midway.worked.get?_forward found₀
  exact (pass.turn_induction old midway known member found one (I := fun _ _ => True) trivial
    (fun _ _ _ _ _ => trivial) fun _ _ _ _ _ _ _ _ _ _ _ _ => trivial).1

/-- In the turn of a member every selected builder with a key to make has made it. -/
theorem copies (old : ColumnsDistinct generated) (midway : Midway D generated s₀ done s)
    (known : n ∈ D.names) (member : n ∈ s₀.2.names) (found : s.1.get? n = some d)
    (one : (onMember n (x { owner := n, generated })).Answers s () s') {side : KeySide}
    (built : .relationship side.builder ∈ d.plan.builders)
    (chosen : selected (.relationship side.builder) = true)
    (wanted : side.builder.keyFor? d.view = some side.relationship) :
    ∃ before after owner target,
      Copied D generated n s.2 side s'.2 before after owner target := by
  have has : (Builder.relationship side.builder).keySide? d.view = some side :=
    Builder.keySide?_eq_some_iff.2 ⟨rfl, wanted⟩
  refine (pass.turn_induction old midway known member found one
    (I := fun past drafts => .relationship side.builder ∈ past → ∃ before after owner target,
      Copied D generated n s.2 side drafts before after owner target) nofun ?_ ?_).2 built
  · intro past b drafts none before mem
    rcases List.mem_append.1 mem with early | now
    · exact before early
    · obtain rfl := List.mem_singleton.1 now
      cases has.symm.trans (none chosen)
  · intro past side' rest drafts drafts' owner target _ _ wanted' copied before mem
    rcases List.mem_append.1 mem with early | now
    · obtain ⟨drafts₁, drafts₂, owner₁, target₁, made⟩ := before early
      exact ⟨drafts₁, drafts₂, owner₁, target₁, made.later copied.step⟩
    · have same := List.mem_singleton.1 now
      rw [same, Builder.keySide?_eq_some_iff.2 ⟨rfl, wanted'⟩, Option.some.injEq] at has
      exact has ▸ ⟨drafts, drafts', owner, target, copied⟩

end KeyPass

end Generation

end ResourceTables
