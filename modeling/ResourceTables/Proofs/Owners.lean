/-
# `ResourceTables.Proofs.Owners` — the sides of a unit, each owner on its own

No side needs to know those of other owners, as long as no two owners ask a resource for one free
name.  Then the sides of a unit are settled as if each owner were alone, and what they make of a
resource does not depend on the unit or on the order of its members.
-/
import ResourceTables.Proofs.Settlements

namespace ResourceTables.Binding

/-- The one-to-many relationships of a resource. -/
def sidesOf (D : Roster Descriptor) (n : String) : List ManySide :=
  match D.get? n with
  | none => []
  | some d => manySidesOf n d

/-- The settlements of a resource as if it had the only sides. -/
def ownSettlements (D : Roster Descriptor) (n : String) : List Settlement := settle D [] (sidesOf D n)

/-- A side asks its target for a property of some name: that of its own inverse, else that of the owner.
An heir does not ask where the target leads back already. -/
structure ManySide.Asks (D : Roster Descriptor) (side : ManySide) (x : String) : Prop where
  name_eq : x = if side.inherited then Naming.snakeCase side.owner
    else side.inverse.getD (Naming.snakeCase side.owner)
  waiting : side.inherited = true → ∀ i, side.inverse = some i → leadsBack D [] side i = false

/-- The name of a settlement is free on the target as it is declared. -/
def Free (D : Roster Descriptor) (p : Settlement) : Prop :=
  ∃ t, D.get? p.side.target = some t ∧ t.hasProperty p.inverse = false

/-- Under no free name some settlements meet some others. -/
def Apart (D : Roster Descriptor) (others own : List Settlement) : Prop :=
  ∀ q ∈ others, ∀ p ∈ own, q.side.target = p.side.target → q.inverse = p.inverse → ¬ Free D p

variable {unit : List String} {n o x i : String} {d t : Descriptor} {D : Roster Descriptor}
  {side : ManySide} {sides : List ManySide} {p : Settlement} {done others own : List Settlement}

/-! ## What owners ask for -/

theorem mem_sidesOf : side ∈ sidesOf D n ↔ ∃ d, D.get? n = some d ∧ side ∈ manySidesOf n d := by
  unfold sidesOf
  cases D.get? n <;> simp

theorem owner_of_mem_sidesOf (mem : side ∈ sidesOf D n) : side.owner = n := by
  obtain ⟨d, _, mem⟩ := mem_sidesOf.1 mem
  obtain ⟨e, _, _, rfl⟩ := mem_manySidesOf.1 mem
  rfl

theorem side_of_mem_ownSettlements (mem : p ∈ ownSettlements D n) : p.side ∈ sidesOf D n := by
  rw [← sides_settle D [] (sidesOf D n)]
  exact List.mem_map_of_mem mem

/-- A target that leads back as it is declared goes on to do so. -/
theorem leadsBack_of_declared (declared : leadsBack D [] side i = true) (done : List Settlement) :
    leadsBack D done side i = true := by
  obtain ⟨r, found, back⟩ := (Option.any_eq_true _ _).1 declared
  obtain ⟨t, there, named⟩ := Option.bind_eq_some_iff.1 found
  rw [settledRelationship?_nil] at named
  obtain ⟨inverse, stays⟩ := settledRelationship?_of_some named side.target done
  rw [leadsBack, there, Option.bind_some, stays]
  exact back

/-- A target that does not lead back as it is declared does so because of a side settled before. -/
theorem exists_mem_of_leadsBack (there : D.get? side.target = some t)
    (lacks : t.hasProperty i = false) (back : leadsBack D done side i = true) :
    ∃ q ∈ done, q.side.target = side.target ∧ q.inverse = i := by
  rw [hasProperty_eq, Bool.or_eq_false_iff] at lacks
  have undeclared := Option.not_isSome_iff_eq_none.1 (Bool.eq_false_iff.1 lacks.2)
  simp only [leadsBack, there, Option.bind_some, settledRelationship?, undeclared, lacks.1,
    Bool.false_eq_true, if_false] at back
  cases known : done.find? fun q => q.side.target == side.target && q.inverse == i with
  | none => simp [known] at back
  | some q =>
      have fits := List.find?_some known
      rw [Bool.and_eq_true, beq_iff_eq, beq_iff_eq] at fits
      exact ⟨q, List.mem_of_find?_eq_some known, fits⟩

/-- A side asks for the name that it is settled under, unless it is that of its inverse since the
target leads back. -/
theorem asks_settledName (D : Roster Descriptor) (done : List Settlement) (side : ManySide) :
    side.Asks D (settledName D done side) ∨
      ∃ i, settledName D done side = i ∧ leadsBack D done side i = true := by
  unfold settledName
  cases named : side.inverse with
  | none => exact .inl ⟨by simp [named], by simp [named]⟩
  | some i =>
      cases inherited : side.inherited with
      | false => exact .inl ⟨by simp [named, inherited], by simp [inherited]⟩
      | true =>
          cases back : leadsBack D done side i with
          | true => exact .inr ⟨i, by simp [back], back⟩
          | false =>
              refine .inl ⟨by simp [inherited, back], fun _ j other => ?_⟩
              obtain rfl : i = j := Option.some.inj (named.symm.trans other)
              rw [Bool.eq_false_iff]
              intro declared
              rw [leadsBack_of_declared declared] at back
              cases back

/-- A side that is settled under a free name has it from a side that asks for it. -/
theorem exists_asks {S : List ManySide} (inside : ∀ s ∈ sides, s ∈ S)
    (before : ∀ q ∈ done, Free D q → ∃ s ∈ S, s.target = q.side.target ∧ s.Asks D q.inverse) :
    ∀ p ∈ settle D done sides, Free D p → ∃ s ∈ S, s.target = p.side.target ∧ s.Asks D p.inverse := by
  induction sides generalizing done with
  | nil =>
      intro p mem
      cases mem
  | cons side rest ih =>
      have here : Free D ⟨side, settledName D done side⟩ →
          ∃ s ∈ S, s.target = side.target ∧ s.Asks D (settledName D done side) := by
        rintro ⟨t, there, lacks⟩
        rcases asks_settledName D done side with asks | ⟨i, name, back⟩
        · exact ⟨side, inside side List.mem_cons_self, rfl, asks⟩
        · rw [name] at lacks ⊢
          obtain ⟨q, mem, into, rfl⟩ := exists_mem_of_leadsBack there lacks back
          rw [← into]
          exact before q mem ⟨t, into ▸ there, lacks⟩
      intro p mem free
      rcases List.mem_cons.1 mem with rfl | later
      · exact here free
      · refine ih (fun s mem => inside s (List.mem_cons_of_mem _ mem)) ?_ p later free
        intro q mem free
        rcases List.mem_append.1 mem with early | last
        · exact before q early free
        · rw [List.mem_singleton] at last
          subst last
          exact here free

/-! ## Owners apart -/

/-- Whether a target leads back to an owner shows in the settlements of that owner. -/
theorem leadsBack_append (foreign : ∀ q ∈ others, q.side.owner ≠ side.owner)
    (apart : Apart D others own) (i : String) :
    leadsBack D (others ++ own) side i = leadsBack D own side i := by
  unfold leadsBack
  cases there : D.get? side.target with
  | none => rfl
  | some t =>
      simp only [Option.bind_some, settledRelationship?]
      cases declared : t.relationship? i with
      | some r => rfl
      | none =>
          cases field : (t.fieldNamed? i).isSome with
          | true => rfl
          | false =>
              simp only [Bool.false_eq_true, if_false, List.find?_append]
              cases early : others.find? fun q => q.side.target == side.target && q.inverse == i with
              | none => rfl
              | some q =>
                  have mem := List.mem_of_find?_eq_some early
                  have asked := List.find?_some early
                  rw [Bool.and_eq_true, beq_iff_eq, beq_iff_eq] at asked
                  have other : (q.side.owner == side.owner) = false := by
                    simpa using foreign q mem
                  cases late : own.find? fun q => q.side.target == side.target && q.inverse == i with
                  | none => exact other
                  | some p =>
                      have asked' := List.find?_some late
                      rw [Bool.and_eq_true, beq_iff_eq, beq_iff_eq] at asked'
                      refine absurd ⟨t, asked'.1 ▸ there, ?_⟩ (apart q mem p
                        (List.mem_of_find?_eq_some late) (asked.1.trans asked'.1.symm)
                        (asked.2.trans asked'.2.symm))
                      rw [asked'.2, hasProperty_eq, field, declared]
                      rfl

theorem settledName_append (foreign : ∀ q ∈ others, q.side.owner ≠ side.owner)
    (apart : Apart D others own) : settledName D (others ++ own) side = settledName D own side := by
  unfold settledName
  simp only [leadsBack_append foreign apart]

/-- The sides of one owner are settled without a look at those of others. -/
theorem settle_foreign (foreign : ∀ q ∈ others, ∀ s ∈ sides, q.side.owner ≠ s.owner)
    (apart : Apart D others (own ++ settle D own sides)) :
    settle D (others ++ own) sides = settle D own sides := by
  induction sides generalizing own with
  | nil => rfl
  | cons side rest ih =>
      have name : settledName D (others ++ own) side = settledName D own side := by
        refine settledName_append (fun q mem => foreign q mem side List.mem_cons_self) ?_
        exact fun q hq p hp => apart q hq p (List.mem_append_left _ hp)
      simp only [settle, name, List.append_assoc, List.cons.injEq, true_and]
      refine ih (fun q mem s later => foreign q mem s (List.mem_cons_of_mem _ later)) ?_
      simpa only [settle, List.append_assoc, List.singleton_append] using apart

/-- The sides of a unit are settled as if each owner were alone. -/
theorem settle_unit (distinct : unit.Nodup)
    (apart : ∀ o ∈ unit, ∀ n ∈ unit, o ≠ n → Apart D (ownSettlements D o) (ownSettlements D n)) :
    settle D [] (manySides D unit) = unit.flatMap (ownSettlements D) := by
  suffices ∀ rest before, unit = before ++ rest →
      settle D (before.flatMap (ownSettlements D)) (rest.flatMap (sidesOf D))
        = rest.flatMap (ownSettlements D) from this unit [] rfl
  intro rest
  induction rest with
  | nil =>
      intro before _
      rfl
  | cons n rest ih =>
      intro before split
      have here : n ∈ unit := by rw [split]; simp
      have earlier : ∀ o ∈ before, o ∈ unit ∧ o ≠ n := by
        intro o mem
        rw [split, List.nodup_append] at distinct
        rw [split]
        exact ⟨List.mem_append_left _ mem, distinct.2.2 o mem n List.mem_cons_self⟩
      have alone : settle D (before.flatMap (ownSettlements D)) (sidesOf D n) = ownSettlements D n := by
        rw [← List.append_nil (before.flatMap _)]
        refine settle_foreign ?_ ?_
        · intro q mem s hs
          obtain ⟨o, inside, mem⟩ := List.mem_flatMap.1 mem
          rw [owner_of_mem_sidesOf (side_of_mem_ownSettlements mem), owner_of_mem_sidesOf hs]
          exact (earlier o inside).2
        · intro q mem
          obtain ⟨o, inside, mem⟩ := List.mem_flatMap.1 mem
          obtain ⟨member, other⟩ := earlier o inside
          exact apart o member n here other q mem
      have later := ih (before ++ [n]) (by simp [split])
      rw [List.flatMap_append, List.flatMap_singleton] at later
      rw [List.flatMap_cons, List.flatMap_cons, settle_append, alone, later]

/-! ## Resources that are asked by one owner for each name -/

/-- A side of a resource that has a table. -/
def IsSide (D : Roster Descriptor) (side : ManySide) : Prop :=
  ∃ d, D.get? side.owner = some d ∧ d.isAbstract = false ∧ side ∈ manySidesOf side.owner d

/-- A one-to-many of a resource that has a table is a side. -/
theorem exists_isSide (found : D.get? o = some d) (concrete : d.isAbstract = false)
    {e : RelationshipEntry} (mem : e ∈ d.relationships) (many : e.relationship.kind = .oneToMany) :
    ∃ side, IsSide D side ∧ side.owner = o ∧ side.target = e.relationship.target := by
  refine ⟨{ owner := o, inherited := e.declaredBy != o, relationship := e.name,
            target := e.relationship.target, inverse := e.relationship.inverse,
            onUpdate := e.relationship.onUpdate, onDelete := e.relationship.onDelete },
    ⟨d, found, concrete, ?_⟩, rfl, rfl⟩
  exact mem_manySidesOf.2 ⟨e, mem, many, rfl⟩

/-- Where nothing is inherited, no side is. -/
theorem IsSide.not_inherited (declared : ∀ n d, D.get? n = some d → ∀ e ∈ d.relationships, e.declaredBy = n)
    (h : IsSide D side) : side.inherited = false := by
  obtain ⟨d, found, _, mem⟩ := h
  obtain ⟨e, inside, _, same⟩ := mem_manySidesOf.1 mem
  rw [same]
  simpa using declared _ d found e inside

/-- The sides of two owners ask one resource for one name that it does not declare. -/
structure Contest (D : Roster Descriptor) (n : String) (s s' : ManySide) (x : String) : Prop where
  side : IsSide D s
  side' : IsSide D s'
  target_eq : s.target = n
  target_eq' : s'.target = n
  asks : s.Asks D x
  asks' : s'.Asks D x
  others : s.owner ≠ s'.owner
  free : ∃ t, D.get? n = some t ∧ t.hasProperty x = false

theorem Contest.symm {s s' : ManySide} (h : Contest D n s s' x) : Contest D n s' s x :=
  ⟨h.side', h.side, h.target_eq', h.target_eq, h.asks', h.asks, h.others.symm, h.free⟩

/-- No two owners ask a resource for one name, except for a name that the resource declares. -/
def Uncontested (D : Roster Descriptor) (n : String) : Prop := ∀ s s' x, ¬ Contest D n s s' x

/-- Some names are those of resources with tables. -/
def Tabled (D : Roster Descriptor) (unit : List String) : Prop :=
  ∀ n ∈ unit, ∃ d, D.get? n = some d ∧ d.isAbstract = false

theorem Tabled.isSide (tabled : Tabled D unit) (member : n ∈ unit) (mem : side ∈ sidesOf D n) :
    IsSide D side := by
  have owner := owner_of_mem_sidesOf mem
  obtain ⟨d, found, concrete⟩ := tabled n member
  obtain ⟨d', found', mem⟩ := mem_sidesOf.1 mem
  rw [found, Option.some.injEq] at found'
  subst found'
  exact ⟨d, owner.symm ▸ found, concrete, owner.symm ▸ mem⟩

/-- What an owner settles under a free name, one of its sides asks for. -/
theorem exists_asks_of_mem (mem : p ∈ ownSettlements D o) (free : Free D p) :
    ∃ s ∈ sidesOf D o, s.target = p.side.target ∧ s.Asks D p.inverse := by
  refine exists_asks (fun s inside => inside) ?_ p mem free
  intro q impossible
  cases impossible

/-- Two owners do not settle sides into a resource under one free name, since both would ask for
it. -/
theorem Uncontested.apart {q : Settlement} {o' : String} (uncontested : Uncontested D n)
    (sides : ∀ s ∈ sidesOf D o, IsSide D s) (sides' : ∀ s ∈ sidesOf D o', IsSide D s)
    (other : o ≠ o') (hq : q ∈ ownSettlements D o) (hp : p ∈ ownSettlements D o')
    (target : q.side.target = n) (target' : p.side.target = n) (same : q.inverse = p.inverse) :
    ¬ Free D p := by
  rintro ⟨t, there, lacks⟩
  obtain ⟨s, mem, into, asks⟩ :=
    exists_asks_of_mem hq ⟨t, by rw [target, ← target']; exact there, same ▸ lacks⟩
  obtain ⟨s', mem', into', asks'⟩ := exists_asks_of_mem hp ⟨t, there, lacks⟩
  refine uncontested s s' p.inverse ⟨sides s mem, sides' s' mem', into.trans target,
    into'.trans target', same ▸ asks, asks', ?_, t, target' ▸ there, lacks⟩
  rw [owner_of_mem_sidesOf mem, owner_of_mem_sidesOf mem']
  exact other

theorem find?_flatMap_of_only {α β : Type} {f : α → List β} {P : β → Bool} {xs : List α} {a : α}
    (mem : a ∈ xs) (only : ∀ b ∈ xs, b ≠ a → ∀ y ∈ f b, P y = false) :
    (xs.flatMap f).find? P = (f a).find? P := by
  induction xs with
  | nil => cases mem
  | cons b rest ih =>
      rw [List.flatMap_cons, List.find?_append]
      by_cases same : b = a
      · subst same
        cases here : (f b).find? P with
        | some y => rfl
        | none =>
            rw [Option.none_or, List.find?_eq_none]
            intro y inside
            obtain ⟨c, later, inside⟩ := List.mem_flatMap.1 inside
            by_cases same : c = b
            · exact List.find?_eq_none.1 here y (same ▸ inside)
            · rw [only c (List.mem_cons_of_mem _ later) same y inside]
              exact Bool.false_ne_true
      · have none : (f b).find? P = none := by
          rw [List.find?_eq_none]
          intro y inside
          rw [only b List.mem_cons_self same y inside]
          exact Bool.false_ne_true
        rw [none, Option.none_or]
        refine ih ((List.mem_cons.1 mem).resolve_left (Ne.symm same)) ?_
        intro c later
        exact only c (List.mem_cons_of_mem _ later)

/-- Some names are all that a resource has to do with: they have tables, and with the resource come
all that have sides into it. -/
structure Surrounds (D : Roster Descriptor) (unit : List String) (n : String) : Prop where
  tabled : Tabled D unit
  member : n ∈ unit
  owners : ∀ s, IsSide D s → s.target = n → s.owner ∈ unit

/-- What is settled about a resource's own sides is found among its own settlements. -/
theorem find?_own (member : n ∈ unit) (x : String) :
    ((unit.flatMap (ownSettlements D)).find? fun p =>
        p.side.owner == n && p.side.relationship == x)
      = (ownSettlements D n).find? fun p => p.side.owner == n && p.side.relationship == x := by
  refine find?_flatMap_of_only member ?_
  intro o _ other p mem
  have owner := owner_of_mem_sidesOf (side_of_mem_ownSettlements mem)
  simp [owner, other]

section Into

variable {unit' : List String} (uncontested : Uncontested D n) (found : D.get? n = some d)
  (lacks : d.hasProperty x = false)

include found lacks in
theorem asks_iff :
    (p.side.target == n && p.inverse == x) = true ↔
      p.side.target = n ∧ p.inverse = x ∧ Free D p := by
  rw [Bool.and_eq_true, beq_iff_eq, beq_iff_eq]
  constructor
  · rintro ⟨rfl, rfl⟩
    exact ⟨rfl, rfl, d, found, lacks⟩
  · exact fun all => ⟨all.1, all.2.1⟩

include uncontested found lacks in
/-- What one owner settles into a resource under a free name is found among its settlements. -/
theorem find?_asked (around : Surrounds D unit n) (inside : o ∈ unit)
    (mem : p ∈ ownSettlements D o) (asks : (p.side.target == n && p.inverse == x) = true) :
    ((unit.flatMap (ownSettlements D)).find? fun q => q.side.target == n && q.inverse == x)
      = (ownSettlements D o).find? fun q => q.side.target == n && q.inverse == x := by
  obtain ⟨target, name, free⟩ := (asks_iff found lacks).1 asks
  refine find?_flatMap_of_only inside ?_
  intro o' inside' other q mem'
  rw [Bool.eq_false_iff]
  intro asks'
  obtain ⟨target', name', _⟩ := (asks_iff found lacks).1 asks'
  exact uncontested.apart (fun s => around.tabled.isSide inside')
    (fun s => around.tabled.isSide inside) other mem' mem target' target (name'.trans name.symm) free

include uncontested found lacks in
/-- What is settled into a resource under a free name is the same wherever all owners are. -/
theorem find?_into (h : Surrounds D unit n) (h' : Surrounds D unit' n) :
    ((unit.flatMap (ownSettlements D)).find? fun q => q.side.target == n && q.inverse == x)
      = (unit'.flatMap (ownSettlements D)).find? fun q => q.side.target == n && q.inverse == x := by
  have owner : ∀ {names names' : List String} {o p}, Surrounds D names n → Surrounds D names' n →
      o ∈ names → p ∈ ownSettlements D o → (p.side.target == n && p.inverse == x) = true →
      o ∈ names' := by
    intro names names' o p around around' inside mem asks
    have side := side_of_mem_ownSettlements mem
    rw [← owner_of_mem_sidesOf side]
    exact around'.owners p.side (around.tabled.isSide inside side) ((asks_iff found lacks).1 asks).1
  cases first : (unit.flatMap (ownSettlements D)).find? fun q =>
      q.side.target == n && q.inverse == x with
  | some p =>
      obtain ⟨o, inside, mem⟩ := List.mem_flatMap.1 (List.mem_of_find?_eq_some first)
      have asks := List.find?_some first
      rw [← first, find?_asked uncontested found lacks h inside mem asks,
        find?_asked uncontested found lacks h' (owner h h' inside mem asks) mem asks]
  | none =>
      rw [eq_comm, List.find?_eq_none]
      intro p mem asks
      obtain ⟨o, inside, mem⟩ := List.mem_flatMap.1 mem
      exact List.find?_eq_none.1 first p (List.mem_flatMap.2 ⟨o, owner h' h inside mem asks, mem⟩) asks

end Into

/-- What settled sides make of a resource does not depend on what else is in the unit, nor on the
order in which the members come. -/
theorem settledRelationship?_congr {unit' : List String} (uncontested : Uncontested D n)
    (found : D.get? n = some d) (h : Surrounds D unit n) (h' : Surrounds D unit' n) (x : String) :
    settledRelationship? d n (unit.flatMap (ownSettlements D)) x
      = settledRelationship? d n (unit'.flatMap (ownSettlements D)) x := by
  unfold settledRelationship?
  cases declared : d.relationship? x with
  | some r => simp only [find?_own h.member, find?_own h'.member]
  | none =>
      cases field : (d.fieldNamed? x).isSome with
      | true => rfl
      | false =>
          have lacks : d.hasProperty x = false := by
            rw [hasProperty_eq, field, declared]
            rfl
          simp only [find?_into uncontested found lacks h h']

end ResourceTables.Binding
