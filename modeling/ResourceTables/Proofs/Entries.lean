/-
# `ResourceTables.Proofs.Entries` — a descriptor's three lists, kept in step

Fields, relationships and builders stand in three lists that are changed by hand, and a name may
change its kind on the way: an inherited field is shadowed by a relationship, which a field shadows
again.  Read together, fields and relationships are the entries of the descriptor.  However a
descriptor is filled, the entries have distinct names, each has one builder that suits it, and
there is no other builder.

What one insertion does is said once, by `fails_insertion` and `inserts_of_answers`; what any number
of them leaves follows by induction.
-/
import ResourceTables.Proofs.Orderly

namespace ResourceTables

/-- A builder is of the kind of a property, and agrees with a relationship on lists and on keys. -/
def Builder.Suits : Builder → Property → Prop
  | .field _, .field _ => True
  | .relationship b, .relationship r =>
    b.useList = r.useList ∧ b.forcesPrimaryKey = r.identifying
  | _, _ => False

namespace Descriptor

/-- Everything that is entered, fields first. -/
def entries (d : Descriptor) : List CollectedProperty :=
  d.fields.map (fun e => ⟨e.name, .field e.field, e.declaredBy⟩)
    ++ d.relationships.map fun e => ⟨e.name, .relationship e.relationship, e.declaredBy⟩

variable {d d' : Descriptor} {p : CollectedProperty} {n origin : String}

theorem names_entries (d : Descriptor) :
    d.entries.map (·.name) = d.fieldNames ++ d.relationshipNames := by
  simp [entries, fieldNames, relationshipNames, Function.comp_def]

theorem mem_entries :
    p ∈ d.entries ↔
      (∃ e ∈ d.fields, p = ⟨e.name, .field e.field, e.declaredBy⟩)
        ∨ ∃ e ∈ d.relationships, p = ⟨e.name, .relationship e.relationship, e.declaredBy⟩ := by
  simp only [entries, List.mem_append, List.mem_map, eq_comm]

/-- A name that is held has the declarer of its entry. -/
theorem WellFormed.declaredBy?_eq_some_iff (wf : d.WellFormed) :
    d.declaredBy? n = some origin ↔ ∃ p ∈ d.entries, p.name = n ∧ p.declaredBy = origin := by
  constructor
  · intro held
    rw [declaredBy?, Option.or_eq_some_iff, Option.map_eq_some_iff, Option.map_eq_some_iff] at held
    rcases held with ⟨e, found, same⟩ | ⟨_, e, found, same⟩
    · have named : e.name = n := by simpa using List.find?_some found
      exact ⟨_, mem_entries.2 (.inl ⟨e, List.mem_of_find?_eq_some found, rfl⟩), named, same⟩
    · have named : e.name = n := by simpa using List.find?_some found
      exact ⟨_, mem_entries.2 (.inr ⟨e, List.mem_of_find?_eq_some found, rfl⟩), named, same⟩
  · rintro ⟨p, mem, rfl, rfl⟩
    rcases mem_entries.1 mem with ⟨e, he, rfl⟩ | ⟨e, he, rfl⟩
    · have found : d.fieldNamed? e.name = some e := find?_key_of_mem wf.fields_distinct he
      simp [declaredBy?, found]
    · have found : d.relationshipNamed? e.name = some e :=
        find?_key_of_mem wf.relationships_distinct he
      have other : d.fieldNamed? e.name = none :=
        fieldNamed?_eq_none_iff.2 fun field =>
          wf.apart e.name field (List.mem_map_of_mem (f := (·.name)) he)
      simp [declaredBy?, found, other]

/-! ## Entries and builders -/

/-- The entries have distinct names, and the builders are one for each entry, which they suit. -/
structure InStep (d : Descriptor) : Prop where
  distinct : (d.entries.map (·.name)).Nodup
  built_once : d.plan.names.Nodup
  built : ∀ n, n ∈ d.plan.names ↔ ∃ p ∈ d.entries, p.name = n
  suited : ∀ b ∈ d.plan.builders, ∃ p ∈ d.entries, p.name = b.name ∧ b.Suits p.property

theorem WellFormed.inStep (wf : d.WellFormed) (faithful : d.Faithful) : d.InStep where
  distinct := by
    rw [names_entries, List.nodup_append']
    exact ⟨wf.fields_distinct, wf.relationships_distinct, fun n => wf.apart n⟩
  built_once := wf.plan_distinct
  built := by
    intro n
    rw [wf.mem_plan_names, ← List.mem_append, ← names_entries, List.mem_map]
  suited := by
    intro b mem
    cases b with
    | field m =>
        obtain ⟨e, he, rfl⟩ := List.mem_map.1 ((wf.field_built m).1 mem)
        exact ⟨_, mem_entries.2 (.inl ⟨e, he, rfl⟩), rfl, trivial⟩
    | relationship b =>
        obtain ⟨e, he, same⟩ := List.mem_map.1 ((wf.relationship_built b.name).1 ⟨b, mem, rfl⟩)
        exact ⟨_, mem_entries.2 (.inr ⟨e, he, rfl⟩), same, faithful b e mem he same⟩

/-! ## One insertion -/

/-- A request to enter a property. -/
inductive Insertion where
  | register (p : CollectedProperty)
  | add (name : String) (property : Property)
  | prependField (name : String) (field : Field)

namespace Insertion

/-- The request as it is carried out. -/
def action : Insertion → Action Descriptor Unit
  | register p => Descriptor.register p
  | add name property => Descriptor.add name property
  | prependField name field => Descriptor.prependField name field

/-- The property that is to be entered into a descriptor. -/
def property (d : Descriptor) : Insertion → CollectedProperty
  | register p => p
  | add name property => ⟨name, property, d.resource⟩
  | prependField name field => ⟨name, .field field, d.resource⟩

/-- The request cannot be met, for the reason `e`: the same declarer holds the name already, or,
where it has to be free, anybody. -/
def Refused (d : Descriptor) (e : Error) : Insertion → Prop
  | register p =>
    (∃ held ∈ d.entries, held.name = p.name ∧ held.declaredBy = p.declaredBy)
      ∧ e = .duplicateProperty d.resource p.name
  | add name _ =>
    (∃ held ∈ d.entries, held.name = name ∧ held.declaredBy = d.resource)
      ∧ e = .duplicateProperty d.resource name
  | prependField name _ =>
    ∃ held ∈ d.entries, held.name = name ∧ e = .duplicateProperty held.declaredBy name

end Insertion

/-- What entering a property does: the descriptor holds it, and all that has another name is there
as before and in the same order.  A builder for a name that was held keeps its position. -/
structure Inserts (d : Descriptor) (p : CollectedProperty) (d' : Descriptor) : Prop where
  held : p ∈ d'.entries
  fields_kept : d'.fields.filter (·.name != p.name) = d.fields.filter (·.name != p.name)
  relationships_kept :
    d'.relationships.filter (·.name != p.name) = d.relationships.filter (·.name != p.name)
  builders_kept :
    d'.plan.builders.filter (·.name != p.name) = d.plan.builders.filter (·.name != p.name)
  in_place : p.name ∈ d.plan.names → d'.plan.names = d.plan.names

/-- Replacing the first thing of a name, or putting a new one last, leaves the others in order. -/
theorem filter_putFirst {α : Type} {key : α → String} {a : α} {xs : List α} (ha : key a = n)
    (distinct : (xs.map key).Nodup) :
    (putFirst (key · == n) a xs).filter (key · != n) = xs.filter (key · != n) := by
  induction xs with
  | nil => simp [putFirst, ha]
  | cons x rest ih =>
      rw [List.map_cons, List.nodup_cons] at distinct
      by_cases hx : key x = n
      · simp [putFirst, hx, ha]
      · simp [putFirst, hx, ih distinct.2]

theorem inserts_entered (wf : d.WellFormed) (p : CollectedProperty) :
    Inserts d p (d.entered p) where
  held := by
    rw [mem_entries]
    cases h : p.property with
    | field f =>
        refine .inl ⟨⟨p.name, f, p.declaredBy⟩, ?_, by rw [← h]⟩
        simp only [entered, put, h]
        exact (mem_putFirst wf.fields_distinct).2 (.inl rfl)
    | relationship r =>
        refine .inr ⟨⟨p.name, r, p.declaredBy, none⟩, ?_, by rw [← h]⟩
        simp only [entered, put, h]
        exact (mem_putFirst wf.relationships_distinct).2 (.inl rfl)
  fields_kept := by
    cases h : p.property with
    | field f =>
        simp only [entered, put, h]
        exact filter_putFirst rfl wf.fields_distinct
    | relationship r => simp [entered, put, h]
  relationships_kept := by
    cases h : p.property with
    | field f => simp [entered, put, h]
    | relationship r =>
        simp only [entered, put, h]
        exact filter_putFirst rfl wf.relationships_distinct
  builders_kept := filter_putFirst (name_ofProperty p.name p.property) wf.plan_distinct
  in_place := by
    intro held
    exact (map_key_putFirst (name_ofProperty p.name p.property)).trans (if_pos held)

/-- The descriptor once a field is entered before everything else. -/
def prepended (d : Descriptor) (name : String) (field : Field) : Descriptor :=
  { d with
    fields := { name, field, declaredBy := d.resource } :: d.fields
    plan := d.plan.insertAt 0 (.field name) }

theorem inserts_prepended {name : String} (wf : d.WellFormed) (free : d.declaredBy? name = none)
    (field : Field) : Inserts d ⟨name, .field field, d.resource⟩ (d.prepended name field) where
  held := mem_entries.2 (.inl ⟨_, List.mem_cons_self, rfl⟩)
  fields_kept := by simp [prepended]
  relationships_kept := rfl
  builders_kept := by simp [prepended, BuildPlan.insertAt, Builder.name]
  in_place := by
    intro held
    obtain ⟨field, relationship⟩ := declaredBy?_eq_none_iff.1 free
    rcases wf.mem_plan_names.1 held with there | there
    · exact absurd there field
    · exact absurd there relationship

theorem answers_prependField {name : String} {field : Field} {u : Unit} :
    (prependField name field).Answers d u d' ↔
      d.declaredBy? name = none ∧ d.prepended name field = d' := by
  rw [prependField, Action.answers_read_bind]
  cases held : d.declaredBy? name with
  | none => simp [prepended]
  | some origin => simp

theorem fails_prependField {name : String} {field : Field} {e : Error} :
    (prependField name field).Fails d e d' ↔
      ∃ origin, d.declaredBy? name = some origin ∧ e = .duplicateProperty origin name ∧ d' = d := by
  rw [prependField, Action.fails_read_bind]
  cases held : d.declaredBy? name with
  | none => simp
  | some origin => simp [eq_comm]

/-- A request is refused for the names that are held, and then changes nothing. -/
theorem fails_insertion (wf : d.WellFormed) {insertion : Insertion} {e : Error} :
    insertion.action.Fails d e d' ↔ insertion.Refused d e ∧ d' = d := by
  have registered : ∀ p : CollectedProperty, (register p).Fails d e d' ↔
      ((∃ held ∈ d.entries, held.name = p.name ∧ held.declaredBy = p.declaredBy)
        ∧ e = .duplicateProperty d.resource p.name) ∧ d' = d := by
    intro p
    rw [fails_register, wf.declaredBy?_eq_some_iff, eq_comm (b := e), eq_comm (b := d'), and_assoc]
  cases insertion with
  | register p => exact registered p
  | add name property => exact registered ⟨name, property, d.resource⟩
  | prependField name field =>
      rw [Insertion.action, fails_prependField]
      constructor
      · rintro ⟨origin, held, rfl, rfl⟩
        obtain ⟨p, mem, name_eq, rfl⟩ := wf.declaredBy?_eq_some_iff.1 held
        exact ⟨⟨p, mem, name_eq, rfl⟩, rfl⟩
      · rintro ⟨⟨p, mem, name_eq, rfl⟩, rfl⟩
        exact ⟨p.declaredBy, wf.declaredBy?_eq_some_iff.2 ⟨p, mem, name_eq, rfl⟩, rfl, rfl⟩

theorem inserts_of_answers (wf : d.WellFormed) {insertion : Insertion} {u : Unit}
    (h : insertion.action.Answers d u d') : Inserts d (insertion.property d) d' := by
  cases insertion with
  | register p =>
      obtain ⟨_, rfl⟩ := (answers_register wf).1 h
      exact inserts_entered wf p
  | add name property =>
      obtain ⟨_, rfl⟩ := (answers_register (p := ⟨name, property, d.resource⟩) wf).1 h
      exact inserts_entered wf ⟨name, property, d.resource⟩
  | prependField name field =>
      obtain ⟨free, rfl⟩ := answers_prependField.1 h
      exact inserts_prepended wf free field

/-! ## Any number of insertions -/

/-- Met or refused, a request leaves a descriptor that is still being filled. -/
theorem keeps_insertion (resource : Resource) (insertion : Insertion) :
    Action.Keeps (Filling resource) insertion.action := by
  cases insertion with
  | register p => exact keeps_register p
  | add name property =>
      intro d filling
      exact keeps_register ⟨name, property, d.resource⟩ d filling
  | prependField name field =>
      rintro d ⟨pristine, faithful⟩
      exact ⟨pristine.edited ((Edit.prependField d name field).edited pristine.wellFormed),
        faithful.prependField name field⟩

/-- The descriptor after requests that come one after another, each met or refused. -/
def inserting (insertions : List Insertion) (d : Descriptor) : Descriptor :=
  insertions.foldl (fun d insertion => (insertion.action d).state) d

theorem filling_inserting {resource : Resource} (insertions : List Insertion)
    (filling : Filling resource d) : Filling resource (inserting insertions d) := by
  induction insertions generalizing d with
  | nil => exact filling
  | cons insertion rest ih => exact ih (keeps_insertion resource insertion d filling)

/-- However a descriptor is filled, its entries and builders are in step.  The next request is
refused just if its name is held, by the same declarer or, for a field that is to come first, at
all; then nothing changes, and else the property is entered in its place. -/
theorem inStep_inserting (resource : Resource) (insertions : List Insertion) :
    let d := inserting insertions (ofResource resource)
    d.InStep ∧ ∀ insertion : Insertion,
      (∀ e d', insertion.action.Fails d e d' ↔ insertion.Refused d e ∧ d' = d)
        ∧ ((∃ e, insertion.Refused d e)
          ∨ ∃ d', insertion.action.Answers d () d' ∧ Inserts d (insertion.property d) d') := by
  intro d
  obtain ⟨pristine, faithful⟩ : Filling resource d :=
    filling_inserting insertions ⟨pristine_ofResource resource, faithful_ofResource resource⟩
  have wf := pristine.wellFormed
  refine ⟨wf.inStep faithful, fun insertion => ⟨fun e d' => fails_insertion wf, ?_⟩⟩
  rcases Action.answers_or_fails insertion.action d with ⟨u, d', met⟩ | ⟨e, d', refused⟩
  · exact .inr ⟨d', met, inserts_of_answers wf met⟩
  · exact .inl ⟨e, ((fails_insertion wf).1 refused).1⟩

/-- A relationship that shadows an inherited field is built where the field was. -/
example :
    (inserting [.register ⟨"author", .field { storage := .text }, "Base"⟩,
      .add "editor" (.relationship (.new .manyToOne "User")),
      .add "author" (.relationship (.new .manyToOne "User"))]
      (ofResource { name := "Post" })).plan.names = ["author", "editor"] := by
  cbv

end Descriptor

end ResourceTables
