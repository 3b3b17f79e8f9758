/-
# `ResourceTables.Proofs.Settlements` — the inverses of a unit's sides, settled one after another

Completing a side does two things to the members of its unit: the relationship gets the name of its
other side, and under a free name the target gets the many-to-one that is missing.  `Settles` tells,
from the declared descriptors and the sides done so far, what is found under each name.
-/
import ResourceTables.Proofs.Sides

namespace ResourceTables.Binding

/-- A side with the name that its inverse is settled under. -/
structure Settlement where
  side : ManySide
  inverse : String

/-- The relationship under a name once some sides are settled.  Declared ones stay and get their
inverses; a free name stands for the completion of the first side that has it. -/
def settledRelationship? (d : Descriptor) (n : String) (done : List Settlement) (x : String) :
    Option Relationship :=
  match d.relationship? x with
  | some r =>
    let known := done.find? fun p => p.side.owner == n && p.side.relationship == x
    some { r with inverse := (known.map (·.inverse)).or r.inverse }
  | none =>
    if (d.fieldNamed? x).isSome then none
    else (done.find? fun p => p.side.target == n && p.inverse == x).map (completion ·.side)

/-- Whether the target of a side leads back to the owner under some name, once some sides are
settled. -/
def leadsBack (D : Roster Descriptor) (done : List Settlement) (side : ManySide) (i : String) :
    Bool :=
  ((D.get? side.target).bind (settledRelationship? · side.target done i)).any
    (·.target == side.owner)

/-- The name under which a side is settled, once some sides are. -/
def settledName (D : Roster Descriptor) (done : List Settlement) (side : ManySide) : String :=
  match side.inverse with
  | some i => if !side.inherited || leadsBack D done side i then i else Naming.snakeCase side.owner
  | none => Naming.snakeCase side.owner

/-- The settlements of some sides, one after another, once some others are settled. -/
def settle (D : Roster Descriptor) (done : List Settlement) : List ManySide → List Settlement
  | [] => []
  | side :: rest =>
    let p : Settlement := ⟨side, settledName D done side⟩
    p :: settle D (done ++ [p]) rest

/-- Among the members of a unit, what is found under each name is what some settlements say. -/
def Settles (D : Roster Descriptor) (unit : List String) (done : List Settlement)
    (D' : Roster Descriptor) : Prop :=
  ∀ n ∈ unit, ∃ d d', D.get? n = some d ∧ D'.get? n = some d' ∧ d'.fields = d.fields
    ∧ ∀ x, d'.relationship? x = settledRelationship? d n done x

variable {resources : Roster Resource} {models : Roster Model} {unit : List String}
  {n x i : String} {d d' t : Descriptor} {D D' D'' : Roster Descriptor} {u : Unit}
  {r : Relationship} {side : ManySide} {sides : List ManySide} {done : List Settlement}
  {p : Settlement}

/-! ## One more side -/

theorem hasProperty_eq (d : Descriptor) (x : String) :
    d.hasProperty x = ((d.fieldNamed? x).isSome || (d.relationship? x).isSome) := by
  simp only [Descriptor.hasProperty, Descriptor.declaredBy?, Descriptor.relationship?]
  cases d.fieldNamed? x <;> cases d.relationshipNamed? x <;> rfl

theorem fieldNamed?_congr (fields : d'.fields = d.fields) (x : String) :
    d'.fieldNamed? x = d.fieldNamed? x := by
  rw [Descriptor.fieldNamed?, fields, Descriptor.fieldNamed?]

theorem settledRelationship?_nil (d : Descriptor) (n x : String) :
    settledRelationship? d n [] x = d.relationship? x := by
  unfold settledRelationship?
  cases d.relationship? x with
  | some r => rfl
  | none => simp

/-- A declared relationship stays where it is. -/
theorem settledRelationship?_of_some (found : d.relationship? x = some r) (n : String)
    (done : List Settlement) :
    ∃ inverse, settledRelationship? d n done x = some { r with inverse } := by
  unfold settledRelationship?
  rw [found]
  exact ⟨_, rfl⟩

/-- No side among some settlements is the one of another. -/
def New (p : Settlement) (done : List Settlement) : Prop :=
  ∀ q ∈ done, q.side.owner = p.side.owner → q.side.relationship ≠ p.side.relationship

/-- Settling one more side names the inverse of its relationship. -/
theorem settledRelationship?_of_declared (found : d.relationship? x = some r) (new : New p done)
    (n : String) :
    settledRelationship? d n (done ++ [p]) x
      = if n = p.side.owner ∧ x = p.side.relationship then
        (settledRelationship? d n done x).map ({ · with inverse := some p.inverse })
      else settledRelationship? d n done x := by
  unfold settledRelationship?
  rw [found]
  simp only [List.find?_append, List.find?_singleton]
  by_cases here : n = p.side.owner ∧ x = p.side.relationship
  · obtain ⟨rfl, rfl⟩ := here
    have before : (done.find? fun q =>
        q.side.owner == p.side.owner && q.side.relationship == p.side.relationship) = none := by
      rw [List.find?_eq_none]
      intro q mem same
      rw [Bool.and_eq_true, beq_iff_eq, beq_iff_eq] at same
      exact new q mem same.1 same.2
    simp [before]
  · have other : (p.side.owner == n && p.side.relationship == x) = false := by
      rw [Bool.eq_false_iff]
      intro same
      rw [Bool.and_eq_true, beq_iff_eq, beq_iff_eq] at same
      exact here ⟨same.1.symm, same.2.symm⟩
    rw [if_neg here, other]
    simp

/-- Settling one more side puts its completion under its name, if nothing is found there. -/
theorem settledRelationship?_of_free (found : d.relationship? x = none) (n : String) :
    settledRelationship? d n (done ++ [p]) x
      = (settledRelationship? d n done x).or
        (if n = p.side.target ∧ x = p.inverse ∧ (d.fieldNamed? x).isSome = false then
          some (completion p.side)
        else none) := by
  unfold settledRelationship?
  rw [found]
  simp only [List.find?_append, List.find?_singleton]
  cases field : (d.fieldNamed? x).isSome with
  | true => simp
  | false =>
      by_cases here : n = p.side.target ∧ x = p.inverse
      · obtain ⟨rfl, rfl⟩ := here
        cases List.find? _ done <;> simp
      · have other : (p.side.target == n && p.inverse == x) = false := by
          rw [Bool.eq_false_iff]
          intro same
          rw [Bool.and_eq_true, beq_iff_eq, beq_iff_eq] at same
          exact here ⟨same.1.symm, same.2.symm⟩
        have none : ¬ (n = p.side.target ∧ x = p.inverse ∧ false = false) :=
          fun all => here ⟨all.1, all.2.1⟩
        rw [if_neg none, other]
        cases List.find? _ done <;> simp

/-- What one more settlement tells of a name: the inverse of its own relationship, and under a name
that the resource does not declare the completion of its side, if nothing is found there. -/
theorem settledRelationship?_append (new : New p done)
    (declares : n = p.side.owner → d.relationship? p.side.relationship ≠ none) (x : String) :
    settledRelationship? d n (done ++ [p]) x
      = (if n = p.side.owner ∧ x = p.side.relationship then
          (settledRelationship? d n done x).map ({ · with inverse := some p.inverse })
        else settledRelationship? d n done x).or
        (if n = p.side.target ∧ x = p.inverse ∧ d.hasProperty x = false then
          some (completion p.side)
        else none) := by
  cases found : d.relationship? x with
  | some r =>
      have has : d.hasProperty x = true := by
        rw [hasProperty_eq, found, Option.isSome_some, Bool.or_true]
      rw [settledRelationship?_of_declared found new, has, if_neg (c := _ ∧ _ ∧ true = false) (by simp),
        Option.or_none]
  | none =>
      have other : ¬ (n = p.side.owner ∧ x = p.side.relationship) := by
        rintro ⟨here, rfl⟩
        exact declares here found
      rw [settledRelationship?_of_free found, if_neg other, hasProperty_eq, found, Option.isSome_none,
        Bool.or_false]

/-- The name that binding settles a side under is the one that the settlements before say. -/
theorem inverseName_eq (settles : Settles D unit done D') (target : side.target ∈ unit) :
    inverseName D' side = settledName D done side := by
  obtain ⟨d, d', found, found', _, look⟩ := settles side.target target
  have back : ∀ i, pointsBack D' side i = leadsBack D done side i := by
    intro i
    simp only [pointsBack, leadsBack, found, found', Option.bind_some, look]
    cases settledRelationship? d side.target done i <;> rfl
  unfold inverseName settledName
  cases side.inverse with
  | none => rfl
  | some i => simp only [back]

/-- Settling the inverse of a side comes first: it shows on the owner only. -/
theorem Settles.first (settles : Settles D unit done D') (side : ManySide) (i : String)
    (member : n ∈ unit) :
    ∃ d d₁, D.get? n = some d ∧ (settledIn D' side i).get? n = some d₁ ∧ d₁.fields = d.fields
      ∧ ∀ x, d₁.relationship? x = if n = side.owner ∧ x = side.relationship then
          (settledRelationship? d n done x).map ({ · with inverse := some i })
        else settledRelationship? d n done x := by
  obtain ⟨d, d', found, found', fields, look⟩ := settles n member
  obtain ⟨d₁, found₁, fields₁, look₁⟩ := exists_settledIn side i found'
  refine ⟨d, d₁, found, found₁, fields₁.trans fields, fun x => ?_⟩
  rw [look₁, look]

/-- Completing a side puts its completion on the target, if the name is free there. -/
theorem exists_completed (h : (completeSide resources models side).Answers D' u D'')
    (found : (settledIn D' side (inverseName D' side)).get? n = some d) :
    ∃ d'', D''.get? n = some d'' ∧ d''.fields = d.fields ∧ ∀ x, d''.relationship? x
      = (d.relationship? x).or
        (if n = side.target ∧ x = inverseName D' side ∧ d.hasProperty x = false then
          some (completion side)
        else none) := by
  obtain ⟨t, there, choice⟩ := answers_completeSide.1 h
  have here : n = side.target → t = d := by
    rintro rfl
    rw [there, Option.some.injEq] at found
    exact found
  rcases choice with ⟨has, rfl⟩ | ⟨free, _, _, owner, _, rfl⟩
  · refine ⟨d, found, rfl, fun x => ?_⟩
    rw [if_neg, Option.or_none]
    rintro ⟨target, rfl, free⟩
    rw [here target, free] at has
    cases has
  · rw [Roster.get?_modify]
    by_cases target : n = side.target
    · rw [if_pos target, found, here target]
      rw [here target] at free
      refine ⟨_, rfl, rfl, fun x => ?_⟩
      rw [relationship?_completed]
      by_cases asked : x = inverseName D' side
      · subst asked
        rw [if_pos rfl, if_pos ⟨target, rfl, free⟩]
      · rw [if_neg asked, if_neg fun all => asked all.2.1]
    · rw [if_neg target]
      refine ⟨d, found, rfl, fun x => ?_⟩
      rw [if_neg fun all => target all.1, Option.or_none]

/-- Completing a side adds its settlement to what is found under each name. -/
theorem Settles.step (settles : Settles D unit done D') (target : side.target ∈ unit)
    (fits : Fits D side) (new : New ⟨side, settledName D done side⟩ done)
    (h : (completeSide resources models side).Answers D' u D'') :
    Settles D unit (done ++ [⟨side, settledName D done side⟩]) D'' := by
  intro n member
  rw [← inverseName_eq settles target] at new ⊢
  obtain ⟨d, d₁, found, found₁, fields, look⟩ := settles.first side (inverseName D' side) member
  obtain ⟨d₂, found₂, fields₂, look₂⟩ := exists_completed h found₁
  have declares : n = side.owner → d.relationship? side.relationship ≠ none := by
    rintro rfl
    obtain ⟨o, r, owner, named, _⟩ := fits
    rw [found, Option.some.injEq] at owner
    rw [owner, named]
    exact Option.some_ne_none r
  refine ⟨d, d₂, found, found₂, fields₂.trans fields, fun x => ?_⟩
  rw [look₂, settledRelationship?_append new declares, ← look]
  cases known : d₁.relationship? x with
  | some r => rw [Option.some_or, Option.some_or]
  | none =>
      have undeclared : d.relationship? x = none := by
        cases named : d.relationship? x with
        | none => rfl
        | some r =>
            obtain ⟨inverse, stays⟩ := settledRelationship?_of_some named n done
            rw [look, stays, Option.map_some, ← apply_ite some] at known
            cases known
      have same : d₁.hasProperty x = d.hasProperty x := by
        rw [hasProperty_eq, hasProperty_eq, fieldNamed?_congr fields, known, undeclared]
      rw [same]

/-! ## All sides -/

theorem settle_append (D : Roster Descriptor) (done : List Settlement) (xs ys : List ManySide) :
    settle D done (xs ++ ys) = settle D done xs ++ settle D (done ++ settle D done xs) ys := by
  induction xs generalizing done with
  | nil => simp [settle]
  | cons side rest ih =>
      simp only [List.cons_append, settle, ih, List.append_assoc, List.nil_append]

/-- Every side is settled once, in order. -/
theorem sides_settle (D : Roster Descriptor) (done : List Settlement) (xs : List ManySide) :
    (settle D done xs).map (·.side) = xs := by
  induction xs generalizing done with
  | nil => rfl
  | cons side rest ih => rw [settle, List.map_cons, ih]

theorem new_of_keys {before after : List ManySide} (i : String)
    (keys : ((before ++ side :: after).map ManySide.key).Nodup) :
    New ⟨side, i⟩ (settle D [] before) := by
  intro q mem owner same
  have earlier : q.side ∈ before := by
    rw [← sides_settle D [] before]
    exact List.mem_map_of_mem mem
  rw [List.map_append, List.map_cons, List.nodup_append] at keys
  exact keys.2.2 _ (List.mem_map_of_mem earlier) _ List.mem_cons_self (Prod.ext owner same)

/-- A side that is not inherited is settled under its own inverse, else under the name of its owner. -/
theorem find?_settle_own (keys : (sides.map ManySide.key).Nodup) (mem : side ∈ sides)
    (own : side.inherited = false) (done : List Settlement) :
    ((settle D done sides).find? fun p =>
        p.side.owner == side.owner && p.side.relationship == side.relationship)
      = some ⟨side, side.inverse.getD (Naming.snakeCase side.owner)⟩ := by
  induction sides generalizing done with
  | nil => cases mem
  | cons first rest ih =>
      rw [List.map_cons, List.nodup_cons] at keys
      rw [settle]
      rcases List.mem_cons.1 mem with rfl | later
      · have name : settledName D done side = side.inverse.getD (Naming.snakeCase side.owner) := by
          unfold settledName
          cases side.inverse with
          | none => rfl
          | some i => simp [own]
        rw [List.find?_cons_of_pos (by simp), name]
      · rw [List.find?_cons_of_neg, ih keys.2 later]
        intro same
        simp only [Bool.and_eq_true, beq_iff_eq] at same
        refine keys.1 ?_
        rw [show first.key = side.key from Prod.ext same.1 same.2]
        exact List.mem_map_of_mem later

/-- Once all sides of a unit are completed, their settlements tell what is found under each name. -/
theorem Settles.run (settles : Settles D unit [] D')
    (fits : ∀ side ∈ sides, side.target ∈ unit ∧ Fits D side) (keys : (sides.map ManySide.key).Nodup)
    (h : (forM sides (completeSide resources models)).Answers D' ⟨⟩ D'') :
    Settles D unit (settle D [] sides) D'' := by
  refine h.forM_induction (I := fun done D₁ => Settles D unit (settle D [] done) D₁) settles ?_
  intro done side rest D₁ D₂ split before one
  obtain ⟨target, fit⟩ := fits side (by rw [split]; simp)
  rw [split] at keys
  rw [settle_append, List.nil_append]
  exact before.step target fit (new_of_keys _ keys) one

/-- Completing a side generates nothing. -/
theorem isGenerated_completeSide (h : (completeSide resources models side).Answers D' u D'')
    (found : D''.get? n = some t) : ∃ d', D'.get? n = some d' ∧ t.isGenerated = d'.isGenerated := by
  have first : ∀ {i t}, (settledIn D' side i).get? n = some t →
      ∃ d', D'.get? n = some d' ∧ t.isGenerated = d'.isGenerated := by
    intro i t there
    rw [settledIn, Roster.get?_modify] at there
    by_cases here : n = side.owner
    · rw [if_pos here] at there
      obtain ⟨d', before, rfl⟩ := Option.map_eq_some_iff.1 there
      exact ⟨d', before, rfl⟩
    · rw [if_neg here] at there
      exact ⟨t, there, rfl⟩
  obtain ⟨t', there, ⟨_, rfl⟩ | ⟨_, _, _, owner, _, rfl⟩⟩ := answers_completeSide.1 h
  · exact first found
  · rw [Roster.get?_modify] at found
    by_cases here : n = side.target
    · rw [if_pos here, here, there, Option.map_some, Option.some.injEq] at found
      rw [← here] at there
      obtain ⟨d', before, same⟩ := first there
      exact ⟨d', before, found ▸ same⟩
    · rw [if_neg here] at found
      exact first found

/-- Where nothing is generated, sides of registered owners can be completed. -/
theorem Settles.exists_run (settles : Settles D unit [] D')
    (fits : ∀ side ∈ sides, side.target ∈ unit ∧ Fits D side) (keys : (sides.map ManySide.key).Nodup)
    (uncached : ∀ n ∈ unit, models.contains n = false)
    (unbuilt : ∀ n ∈ unit, ∀ d', D'.get? n = some d' → d'.isGenerated = false)
    (registered : ∀ side ∈ sides, ∃ r, resources.get? side.owner = some r) :
    ∃ D'', (forM sides (completeSide resources models)).Answers D' ⟨⟩ D'' := by
  refine (Action.exists_answers_forM (I := fun done D₁ => Settles D unit (settle D [] done) D₁
      ∧ ∀ n ∈ unit, ∀ d', D₁.get? n = some d' → d'.isGenerated = false) ⟨settles, unbuilt⟩ ?_).imp
    fun _ ends => ends.1
  intro done side rest D₁ split ⟨before, unbuilt₁⟩
  have mem : side ∈ sides := by rw [split]; simp
  obtain ⟨target, fit⟩ := fits side mem
  obtain ⟨owner, known⟩ := registered side mem
  rw [split] at keys
  have step : ∃ D₂, (completeSide resources models side).Answers D₁ ⟨⟩ D₂ := by
    obtain ⟨_, t, _, there, _⟩ := before.first side (inverseName D₁ side) target
    have open_ : t.isGenerated = false := by
      obtain ⟨_, t₁, _, there₁, _⟩ := before side.target target
      rw [settledIn, Roster.get?_modify] at there
      have now := unbuilt₁ side.target target t₁ there₁
      by_cases here : side.target = side.owner
      · rw [if_pos here, there₁, Option.map_some, Option.some.injEq] at there
        rw [← there]
        exact now
      · rw [if_neg here, there₁, Option.some.injEq] at there
        exact there ▸ now
    cases has : t.hasProperty (inverseName D₁ side) with
    | true => exact ⟨_, answers_completeSide.2 ⟨t, there, .inl ⟨has, rfl⟩⟩⟩
    | false =>
        exact ⟨_, answers_completeSide.2 ⟨t, there,
          .inr ⟨has, uncached side.target target, open_, owner, known, rfl⟩⟩⟩
  obtain ⟨D₂, one⟩ := step
  refine ⟨D₂, one, ?_, ?_⟩
  · rw [settle_append, List.nil_append]
    exact before.step target fit (new_of_keys _ keys) one
  · intro n member d' found
    obtain ⟨d₁, found₁, same⟩ := isGenerated_completeSide one found
    rw [same]
    exact unbuilt₁ n member d₁ found₁

end ResourceTables.Binding
