/-
# `ResourceTables.Proofs.Sides` — what binding that succeeds says about pairs of relationships

A one-to-many of a member is given its other side, or the target has a property of that name already.
The checks then leave one choice: a side that hosts no key names a relationship of its target that
leads back and hosts it.
-/
import ResourceTables.Proofs.Bindings
import ResourceTables.Proofs.Units

namespace ResourceTables.Binding

variable {resources : Roster Resource} {models : Roster Model} {unit : List String}
  {n x i : String} {d d' t : Descriptor} {D D' : Roster Descriptor} {u : Unit} {r : Relationship}
  {side : ManySide}

/-! ## Generated resources stay as they are -/

theorem find?_marked {entries entries' : List RelationshipEntry}
    (h : List.Forall₂ Marked entries entries') (x : String) :
    (entries'.find? (·.name == x)).map (·.relationship)
      = (entries.find? (·.name == x)).map (·.relationship) := by
  induction h with
  | nil => rfl
  | @cons e e' _ _ one _ ih =>
      obtain ⟨resolved, rfl⟩ := one
      by_cases named : e.name = x
      · simp [named]
      · simpa [named] using ih

theorem Frozen.relationship?_eq (h : Frozen d d') (x : String) :
    d'.relationship? x = d.relationship? x :=
  find?_marked h.marked x

theorem Frozen.hasProperty_eq (h : Frozen d d') (x : String) :
    d'.hasProperty x = d.hasProperty x := by
  have names : d'.relationshipNames = d.relationshipNames :=
    names_of_follows (h.marked.imp fun _ _ => Marked.follows)
  have fields : d'.fieldNames = d.fieldNames := by rw [h.rest_eq, Descriptor.fieldNames,
    Descriptor.fieldNames]
  rw [Bool.eq_iff_iff, Descriptor.hasProperty_iff, Descriptor.hasProperty_iff, names, fields]

theorem Frozen.exists_entry (h : Frozen d d') {e' : RelationshipEntry}
    (mem : e' ∈ d'.relationships) :
    ∃ e ∈ d.relationships, e.name = e'.name ∧ e.declaredBy = e'.declaredBy
      ∧ e.relationship = e'.relationship := by
  obtain ⟨e, inside, resolved, rfl⟩ := exists_left_of_forall₂ h.marked mem
  exact ⟨e, inside, rfl, rfl, rfl⟩

/-! ## Sides one by one -/

/-- What tells one side from another. -/
def ManySide.key (side : ManySide) : String × String := (side.owner, side.relationship)

/-- The one-to-many relationships of a unit are so many different sides. -/
theorem nodup_keys_manySides (distinct : unit.Nodup) (wf : AllWellFormed D) :
    ((manySides D unit).map ManySide.key).Nodup := by
  induction unit with
  | nil => exact List.nodup_nil
  | cons n rest ih =>
      obtain ⟨new, distinct⟩ := List.nodup_cons.1 distinct
      have others : ∀ side ∈ manySides D rest, side.owner ∈ rest := fun _ mem =>
        (fits_of_mem_manySides wf mem).1
      unfold manySides at ih others ⊢
      rw [List.flatMap_cons, List.map_append]
      cases found : D.get? n with
      | none => exact ih distinct
      | some d =>
          refine List.nodup_append.2 ⟨?_, ih distinct, ?_⟩
          · have names := (wf n d found).relationships_distinct.sublist
              ((List.filter_sublist (p := (·.relationship.kind == .oneToMany))).map _)
            have keys := names.map (fun _ _ same => congrArg Prod.snd same : Function.Injective (Prod.mk n))
            rw [List.map_map] at keys
            simp only [manySidesOf, List.map_map]
            exact keys
          · intro key mem key' mem' same
            obtain ⟨side, mine, rfl⟩ := List.mem_map.1 mem
            obtain ⟨side', other, rfl⟩ := List.mem_map.1 mem'
            obtain ⟨_, _, _, rfl⟩ := mem_manySidesOf.1 mine
            have owner : n = side'.owner := congrArg Prod.fst same
            exact new (owner ▸ others side' other)

/-! ## Completing one side -/

theorem relationship?_settled (side : ManySide) (i : String) (d : Descriptor) (x : String) :
    (settled side i d).relationship? x
      = if x = side.relationship then (d.relationship? x).map ({ · with inverse := some i })
        else d.relationship? x := by
  simp only [settled, Descriptor.modifyRelationship, Descriptor.relationship?,
    Descriptor.relationshipNamed?]
  have names : ∀ e : RelationshipEntry, RelationshipEntry.name
      { e with relationship := { e.relationship with inverse := some i } } = e.name := fun _ => rfl
  rw [find?_changeFirst names]
  by_cases same : x = side.relationship
  · rw [if_pos same, if_pos same, Option.map_map, Option.map_map]
    rfl
  · rw [if_neg same, if_neg same]

theorem relationship?_completed (side : ManySide) (i : String) (owner : Resource) (d : Descriptor)
    (x : String) :
    (completed side i owner d).relationship? x
      = (d.relationship? x).or (if x = i then some (completion side) else none) := by
  simp only [completed, Descriptor.relationship?, Descriptor.relationshipNamed?, List.find?_append]
  cases d.relationships.find? (·.name == x) with
  | some e => rfl
  | none =>
      by_cases same : x = i
      · simp [completionEntry, same]
      · simp [completionEntry, same, Ne.symm same]

theorem hasProperty_completed (side : ManySide) (i : String) (owner : Resource) (d : Descriptor) :
    (completed side i owner d).hasProperty i = true := by
  refine Descriptor.hasProperty_iff.2 (.inr ?_)
  simp [Descriptor.relationshipNames, completed, completionEntry]

/-- Settling the inverse of a side shows on one relationship of the owner. -/
theorem exists_settledIn (side : ManySide) (i : String) (found : D.get? n = some d) :
    ∃ d', (settledIn D side i).get? n = some d' ∧ d'.fields = d.fields
      ∧ ∀ x, d'.relationship? x = if n = side.owner ∧ x = side.relationship then
          (d.relationship? x).map ({ · with inverse := some i })
        else d.relationship? x := by
  rw [settledIn, Roster.get?_modify]
  by_cases here : n = side.owner
  · rw [if_pos here, found]
    refine ⟨settled side i d, rfl, rfl, fun x => ?_⟩
    rw [relationship?_settled]
    by_cases same : x = side.relationship
    · rw [if_pos same, if_pos ⟨here, same⟩]
    · rw [if_neg same, if_neg fun both => same both.2]
  · rw [if_neg here]
    exact ⟨d, found, rfl, fun x => by rw [if_neg fun both => here both.1]⟩

/-- Completing a side settles its inverse and keeps every other relationship. -/
theorem relationship?_completeSide (h : (completeSide resources models side).Answers D u D')
    (found : D.get? n = some d) (named : d.relationship? x = some r) :
    ∃ d', D'.get? n = some d' ∧ d'.relationship? x = some (if n = side.owner ∧ x = side.relationship
      then { r with inverse := some (inverseName D side) } else r) := by
  have first : ∃ d₁, (settledIn D side (inverseName D side)).get? n = some d₁ ∧
      d₁.relationship? x = some (if n = side.owner ∧ x = side.relationship
        then { r with inverse := some (inverseName D side) } else r) := by
    obtain ⟨d₁, found₁, _, look⟩ := exists_settledIn side (inverseName D side) found
    refine ⟨d₁, found₁, ?_⟩
    rw [look, named]
    by_cases here : n = side.owner ∧ x = side.relationship
    · rw [if_pos here, if_pos here, Option.map_some]
    · rw [if_neg here, if_neg here]
  obtain ⟨t, there, ⟨_, rfl⟩ | ⟨_, _, _, owner, _, rfl⟩⟩ := answers_completeSide.1 h
  · exact first
  · obtain ⟨d₁, found₁, named₁⟩ := first
    rw [Roster.get?_modify]
    by_cases here : n = side.target
    · subst here
      rw [there, Option.some.injEq] at found₁
      subst found₁
      rw [if_pos rfl, there]
      refine ⟨_, rfl, ?_⟩
      rw [relationship?_completed, named₁, Option.some_or]
    · rw [if_neg here]
      exact ⟨d₁, found₁, named₁⟩

/-- A relationship of that name leads to `n`. -/
def LeadsTo (t : Descriptor) (i n : String) : Prop :=
  ∃ other, t.relationship? i = some other ∧ other.target = n

/-- The inverse of a one-to-many is settled, and the target has a property of that name.  If the
one-to-many is inherited, the name is that of the heir, or what it names leads back to the heir. -/
structure OtherSide (D : Roster Descriptor) (n : String) (inherited : Bool) (r : Relationship)
    (i : String) (t : Descriptor) : Prop where
  inverse_eq : r.inverse = some i
  target : D.get? r.target = some t
  property : t.hasProperty i = true
  named : inherited = true → i = Naming.snakeCase n ∨ LeadsTo t i n

/-- A one-to-many that is among the descriptors and has its other side. -/
def HasOtherSide (D : Roster Descriptor) (side : ManySide) : Prop :=
  ∃ d r i t, D.get? side.owner = some d ∧ d.relationship? side.relationship = some r
    ∧ OtherSide D side.owner side.inherited r i t

/-- An inherited one-to-many is settled under the name of the heir, or leads to and fro already. -/
theorem inverseName_of_inherited (inherited : side.inherited = true) :
    inverseName D side = Naming.snakeCase side.owner ∨
      ∃ t, D.get? side.target = some t ∧ LeadsTo t (inverseName D side) side.owner := by
  unfold inverseName
  cases side.inverse with
  | none => exact .inl rfl
  | some i =>
      by_cases back : pointsBack D side i = true
      · right
        simp only [back, Bool.or_true, if_true]
        unfold pointsBack at back
        cases there : D.get? side.target with
        | none => simp [there] at back
        | some t =>
            cases named : t.relationship? i with
            | none => simp [there, named] at back
            | some other => exact ⟨t, rfl, other, named, by simpa [there, named] using back⟩
      · left
        simp [inherited, back]

theorem hasOtherSide_completeSide (fits : Fits D side)
    (h : (completeSide resources models side).Answers D u D') : HasOtherSide D' side := by
  obtain ⟨d, r, found, named, _, target⟩ := fits
  obtain ⟨d', found', named'⟩ := relationship?_completeSide h found named
  rw [if_pos ⟨rfl, rfl⟩] at named'
  have back : ∀ t, D'.get? side.target = some t → side.inherited = true →
      inverseName D side = Naming.snakeCase side.owner
        ∨ LeadsTo t (inverseName D side) side.owner := by
    intro t there inherited
    refine (inverseName_of_inherited inherited).imp_right ?_
    rintro ⟨t₀, before, other, leads, back⟩
    obtain ⟨t', there', leads'⟩ := relationship?_completeSide h before leads
    rw [there, Option.some.injEq] at there'
    subst there'
    refine ⟨_, leads', ?_⟩
    split
    · exact back
    · exact back
  obtain ⟨t, there, ⟨has, rfl⟩ | ⟨_, _, _, owner, _, rfl⟩⟩ := answers_completeSide.1 h
  · exact ⟨d', _, _, t, found', named', rfl, target ▸ there, has, back t there⟩
  · have there' : Roster.get? ((settledIn D side (inverseName D side)).modify side.target
        fun _ => completed side (inverseName D side) owner t) side.target
          = some (completed side (inverseName D side) owner t) := by
      rw [Roster.get?_modify_self, there]
      rfl
    exact ⟨d', _, _, _, found', named', rfl, target ▸ there', hasProperty_completed side _ owner t,
      back _ there'⟩

/-- A side that names its other side still has it after steps that keep its relationship. -/
theorem HasOtherSide.evolve (has : HasOtherSide D side) (wf : AllWellFormed D)
    (steps : Roster.Evolves (Bound unit) D D')
    (kept : ∀ d r, D.get? side.owner = some d → d.relationship? side.relationship = some r →
      ∃ d', D'.get? side.owner = some d' ∧ d'.relationship? side.relationship = some r) :
    HasOtherSide D' side := by
  obtain ⟨d, r, i, t, found, named, inverse, there, property, back⟩ := has
  obtain ⟨d', found', named'⟩ := kept d r found named
  obtain ⟨t', there', bound⟩ := steps.get?_forward there
  have grown := bound.grown (wf _ _ there)
  refine ⟨d', r, i, t', found', named', inverse, there', grown.hasProperty property,
    fun inherited => (back inherited).imp_right ?_⟩
  rintro ⟨o, leads, back⟩
  obtain ⟨inverse', leads'⟩ := grown.relationship? (bound.wellFormed (wf _ _ there)) leads
  exact ⟨_, leads', back⟩

/-- Completing another side takes no other side away. -/
theorem HasOtherSide.completeSide {other : ManySide} (has : HasOtherSide D other)
    (wf : AllWellFormed D) (apart : other.key ≠ side.key)
    (steps : Roster.Evolves (Bound unit) D D')
    (h : (completeSide resources models side).Answers D u D') : HasOtherSide D' other := by
  refine has.evolve wf steps fun d r found named => ?_
  obtain ⟨d', found', named'⟩ := relationship?_completeSide h found named
  rw [if_neg fun both => apart (Prod.ext both.1 both.2)] at named'
  exact ⟨d', found', named'⟩

/-- Every one-to-many of a unit has its other side once all are completed. -/
theorem hasOtherSide_of_completions (distinct : D.names.Nodup) (wf : AllWellFormed D)
    (once : unit.Nodup)
    (h : (forM (manySides D unit) (completeSide resources models)).Answers D ⟨⟩ D') :
    ∀ side ∈ manySides D unit, HasOtherSide D' side := by
  have keys := nodup_keys_manySides once wf
  refine (h.forM_induction (I := fun done D' => Roster.Evolves (Bound unit) D D' ∧
    ∀ side ∈ done, HasOtherSide D' side) ⟨evolves_refl D, by simp⟩ ?_).2
  intro done side rest D₁ D₂ split ⟨steps, before⟩ one
  obtain ⟨member, fits⟩ := fits_of_mem_manySides wf
    (split ▸ List.mem_append_right _ List.mem_cons_self : side ∈ manySides D unit)
  have fits₁ := fits.evolve wf steps
  have step := evolves_completeSide (by rw [steps.names_eq]; exact distinct) resources models member
    fits₁
  rw [one.2] at step
  refine ⟨evolves_trans steps step, fun other mem => ?_⟩
  rcases List.mem_append.1 mem with early | here
  · have apart : other.key ≠ side.key := by
      rw [split, List.map_append, List.map_cons, List.nodup_append] at keys
      exact keys.2.2 _ (List.mem_map_of_mem early) _ List.mem_cons_self
    exact (before other early).completeSide (wf.evolve steps) apart step one
  · rw [List.mem_singleton] at here
    rw [here]
    exact hasOtherSide_completeSide fits₁ one

/-- In a bound unit every one-to-many of a member has its other side, or it is a completion's. -/
theorem otherSide_of_bind (distinct : D.names.Nodup) (wf : AllWellFormed D) {root : String}
    {ordered : List String} (h : (bind resources models root).Answers D ordered D')
    (member : n ∈ ordered) (found : D'.get? n = some d') {e : RelationshipEntry}
    (mem : e ∈ d'.relationships) (many : e.relationship.kind = .oneToMany) :
    ∃ i t, OtherSide D' n (e.declaredBy != n) e.relationship i t := by
  obtain ⟨D₁, looked, completed, _, rfl⟩ := answers_bindUnit.1 h
  rw [(inDeclarationOrder_perm resources _).mem_iff] at member
  obtain ⟨first, _⟩ := targets_of_lookUps distinct wf looked
  have wf₁ := wf.evolve first
  have distinct₁ : D₁.names.Nodup := by rw [first.names_eq]; exact distinct
  have steps := evolves_of_answers distinct₁ wf₁ completed
  obtain ⟨d₁, found₁, bound⟩ := steps.get?_backward found
  rcases (bound.grown (wf₁ n d₁ found₁)).origin mem with
    ⟨e₁, mem₁, name, origin, inverse₁, same⟩ | ⟨⟨side, _, _, same⟩, _⟩
  · obtain ⟨d, r, i, t, found₂, named, other⟩ := hasOtherSide_of_completions distinct₁ wf₁
      (nodup_members root) completed _ (mem_manySides.2
        ⟨n, member, d₁, found₁, mem_manySidesOf.2 ⟨e₁, mem₁, by rw [← many, same], rfl⟩⟩)
    rw [found, Option.some.injEq] at found₂
    subst found₂
    have here : d'.relationship? e₁.name = some e.relationship :=
      ((wf₁.evolve steps) n d' found).relationship?_eq_some_iff.2 ⟨e, mem, name, rfl⟩
    rw [here, Option.some.injEq] at named
    rw [named, origin]
    exact ⟨i, t, other⟩
  · rw [same] at many
    cases many

/-! ## Checks -/

theorem checkPair_eq_ok {other : Option Relationship} :
    checkPair n x r i other = .ok () ↔
      ∃ o, other = some o ∧ o.target = n ∧ o.kind = r.kind.inverse
        ∧ ¬ (r.kind = .oneToOne ∧ o.primary = r.primary) := by
  unfold checkPair
  cases other with
  | none => simp
  | some o =>
      by_cases target : o.target = n
      · by_cases kind : o.kind = r.kind.inverse
        · by_cases both : r.kind = .oneToOne ∧ o.primary = r.primary
          · simp [target, kind, both]
          · simp only [target, kind, bne_self_eq_false, Bool.false_eq_true, if_false,
              Bool.and_eq_true, beq_iff_eq, both, Option.some.injEq, exists_eq_left', not_false_eq_true,
              and_self]
        · simp [target, kind]
      · simp [target]

theorem checkEntry_eq_ok {e : RelationshipEntry} :
    checkEntry D n e = .ok () ↔
      ¬ (e.relationship.kind = .manyToOne ∧ e.relationship.primary = true) ∧
        (e.declaredBy = n →
          match counterpart? D e.relationship with
          | some (i, other) => checkPair n e.name e.relationship i other = .ok ()
          | none => ¬ (e.relationship.kind = .oneToOne ∧ e.relationship.primary = true)) := by
  unfold checkEntry checkSingle
  by_cases stray : e.relationship.kind = .manyToOne ∧ e.relationship.primary = true
  · simp [stray]
  · by_cases own : e.declaredBy = n
    · cases other : counterpart? D e.relationship with
      | none =>
          by_cases alone : e.relationship.kind = .oneToOne ∧ e.relationship.primary = true
          · simp [own, alone]
          · simp only [Bool.and_eq_true, beq_iff_eq, stray, alone, own, if_false,
              bne_self_eq_false, Bool.false_eq_true, not_false_eq_true, implies_true, and_self]
      | some pair =>
          simp [stray, own]
    · simp [stray, own]

theorem counterpart?_eq_some (inverse : r.inverse = some i)
    (there : D.get? r.target = some t) (has : t.hasProperty i = true) : counterpart? D r = some (i, t.relationship? i) := by
  simp [counterpart?, inverse, there, has]

theorem exists_of_counterpart? {other : Option Relationship}
    (h : counterpart? D r = some (i, other)) :
    r.inverse = some i ∧ ∃ t, D.get? r.target = some t ∧ other = t.relationship? i := by
  unfold counterpart? at h
  cases inverse : r.inverse with
  | none => simp [inverse] at h
  | some j =>
      cases there : D.get? r.target with
      | none => simp [inverse, there] at h
      | some t =>
          by_cases has : t.hasProperty j
          · simp only [inverse, there, has, if_true, Option.bind_eq_bind, Option.bind_some,
              Option.some.injEq, Prod.mk.injEq] at h
            obtain ⟨rfl, rfl⟩ := h
            exact ⟨rfl, t, rfl, rfl⟩
          · simp [inverse, there, has] at h

/-! ## Pairs of a bound unit -/

/-- A relationship names one of its target that leads back to `n` and is of a kind that hosts the
key. -/
structure Mirrored (D : Roster Descriptor) (n : String) (r : Relationship) (i : String)
    (t : Descriptor) (other : Relationship) : Prop where
  inverse_eq : r.inverse = some i
  target : D.get? r.target = some t
  named : t.relationship? i = some other
  back : other.target = n
  hosting : other.kind = .manyToOne ∨ other.primary = false

/-- A many-to-one that is checked hosts its key. -/
theorem hostsKey_of_checked {e : RelationshipEntry} (ok : checkEntry D n e = .ok ())
    (hosting : e.relationship.kind = .manyToOne ∨ e.relationship.primary = false) :
    e.relationship.hostsKey = true := by
  obtain ⟨stray, _⟩ := checkEntry_eq_ok.1 ok
  rcases hosting with kind | key
  · have key : e.relationship.primary = false := by
      by_contra primary
      exact stray ⟨kind, by simpa using primary⟩
    rw [Relationship.hostsKey, key]
    rfl
  · rw [Relationship.hostsKey, key]
    rfl

theorem mirrored_of_checkPair (checked : checkPair n x r i (t.relationship? i) = .ok ())
    (primary : r.primary = true) (paired : r.kind ≠ .manyToOne) (inverse : r.inverse = some i)
    (there : D.get? r.target = some t) : ∃ other, Mirrored D n r i t other := by
  obtain ⟨other, named, back, kind, sides⟩ := checkPair_eq_ok.1 checked
  refine ⟨other, inverse, there, named, back, ?_⟩
  cases one : r.kind with
  | manyToOne => exact absurd one paired
  | oneToMany =>
      rw [one] at kind
      exact .inl kind
  | oneToOne =>
      refine .inr ?_
      by_contra same
      exact sides ⟨one, by rw [primary]; simpa using same⟩

/-- Every relationship of a bound unit is checked. -/
theorem checked_of_bind {root : String} {ordered : List String}
    (h : (bind resources models root).Answers D ordered D') (member : n ∈ ordered)
    (found : D'.get? n = some d') {e : RelationshipEntry} (mem : e ∈ d'.relationships) :
    checkEntry D' n e = .ok () := by
  obtain ⟨_, _, _, checked, rfl⟩ := answers_bindUnit.1 h
  rw [(inDeclarationOrder_perm resources _).mem_iff] at member
  exact checkResource_eq_ok.1 (forM_eq_ok.1 checked n member) d' found e mem

/-- If the target is a member too, its side hosts the key. -/
theorem Mirrored.hostsKey {other : Relationship} (mirrored : Mirrored D' n r i t other)
    (wf : t.WellFormed) {root : String} {ordered : List String}
    (h : (bind resources models root).Answers D ordered D') (member : r.target ∈ ordered) :
    other.hostsKey = true := by
  obtain ⟨e, mem, _, rfl⟩ := wf.relationship?_eq_some_iff.1 mirrored.named
  exact hostsKey_of_checked (checked_of_bind h member mirrored.target mem) mirrored.hosting

/-- In a bound unit every relationship that a member declares and that hosts no key has its other
side. -/
theorem exists_mirrored (distinct : D.names.Nodup) (wf : AllWellFormed D) {root : String}
    {ordered : List String} (h : (bind resources models root).Answers D ordered D')
    (member : n ∈ ordered) (found : D'.get? n = some d') {e : RelationshipEntry}
    (mem : e ∈ d'.relationships) (own : e.declaredBy = n)
    (keyless : e.relationship.hostsKey = false) :
    ∃ i t other, Mirrored D' n e.relationship i t other := by
  obtain ⟨stray, pairs⟩ := checkEntry_eq_ok.1 (checked_of_bind h member found mem)
  have pairs := pairs own
  have primary : e.relationship.primary = true := by simpa [Relationship.hostsKey] using keyless
  cases kind : e.relationship.kind with
  | manyToOne => exact absurd ⟨kind, primary⟩ stray
  | oneToOne =>
      cases counterpart : counterpart? D' e.relationship with
      | none =>
          rw [counterpart] at pairs
          exact absurd ⟨kind, primary⟩ pairs
      | some pair =>
          obtain ⟨i, other⟩ := pair
          rw [counterpart] at pairs
          obtain ⟨inverse, t, there, rfl⟩ := exists_of_counterpart? counterpart
          obtain ⟨other, mirrored⟩ :=
            mirrored_of_checkPair pairs primary (by simp [kind]) inverse there
          exact ⟨i, t, other, mirrored⟩
  | oneToMany =>
      obtain ⟨i, t, inverse, there, has, _⟩ :=
        otherSide_of_bind distinct wf h member found mem kind
      rw [counterpart?_eq_some inverse there has] at pairs
      obtain ⟨other, mirrored⟩ :=
        mirrored_of_checkPair pairs primary (by simp [kind]) inverse there
      exact ⟨i, t, other, mirrored⟩

end ResourceTables.Binding
