/-
# `ResourceTables.Proofs.KeyNames` — when two foreign keys of a table have one name

A foreign key is named for its table and its columns.  The columns are joined by the mark that
already stands between a relationship and the column that it copies, so the name does not tell where
a column ends, and nothing checks it against the names of other keys.  The columns are checked: each
key brings columns that are new to the table.  So keys of one name have different columns that read
the same when joined, which takes a key of several columns, and two relationships of which one goes
on where the other ends.
-/
import ResourceTables.Proofs.Cycles
import ResourceTables.Proofs.Keyless
import ResourceTables.Proofs.References

namespace ResourceTables

/-! ## Names that go on -/

namespace Naming

/-- The second name goes on where the first ends. -/
def Continues (x y : String) : Prop := ∃ rest : String, y = s!"{x}_{rest}"

theorem continues_of_toList {x y : String} {more : List Char}
    (h : y.toList = x.toList ++ '_' :: more) : Continues x y := by
  refine ⟨String.ofList more, String.toList_inj.1 ?_⟩
  change _ = (x ++ "_" ++ String.ofList more).toList
  rw [h]
  simp only [String.toList_append, String.toList_ofList, List.append_assoc]
  rfl

/-- Texts that begin with names agree only if the names are the same or one of them goes on where the
other ends. -/
theorem eq_or_continues {x y p q : String} (same : s!"{x}_{p}" = s!"{y}_{q}") :
    x = y ∨ Continues x y ∨ Continues y x := by
  have lists : x.toList ++ '_' :: p.toList = y.toList ++ '_' :: q.toList := by
    have texts : (x ++ "_" ++ p).toList = (y ++ "_" ++ q).toList := congrArg String.toList same
    simpa [String.toList_append] using texts
  rcases List.append_eq_append_iff.1 lists with ⟨more, far, near⟩ | ⟨more, far, near⟩
  · cases more with
    | nil => exact .inl (String.toList_inj.1 (by simpa using far.symm))
    | cons c more =>
        rw [List.cons_append, List.cons.injEq] at near
        exact .inr (.inl (continues_of_toList (near.1 ▸ far)))
  · cases more with
    | nil => exact .inl (String.toList_inj.1 (by simpa using far))
    | cons c more =>
        rw [List.cons_append, List.cons.injEq] at near
        exact .inr (.inr (continues_of_toList (near.1 ▸ far)))

end Naming

open Naming (Continues)

/-! ## Keys of a table -/

/-- The names of the columns as they stand in the name of the key. -/
def ForeignKey.joined (key : ForeignKey) : String := "_".intercalate key.columns

namespace Table

variable {t t' target target' : Table} {x x' : String} {key key' : ForeignKey}

/-- A foreign key of a table that repeats, under a name, the first columns of the primary key of
another. -/
structure KeyOf (t : Table) (x : String) (target : Table) (key : ForeignKey) : Prop where
  name_eq : key.name = s!"{t.name}_{key.joined}_fk"
  columns_eq : key.columns = key.referredColumns.map fun k => s!"{x}_{k}"
  refers : key.referredColumns <+: target.primaryKey.map (·.name)
  refers_ne_nil : key.referredColumns ≠ []

namespace KeyOf

theorem grows (h : t.KeyOf x target key) (first : t.Grows t') (second : target.Grows target') :
    t'.KeyOf x target' key :=
  { h with
    name_eq := by rw [first.name_eq]; exact h.name_eq
    refers := h.refers.trans (second.primaryKey.map _) }

theorem columns_ne_nil (h : t.KeyOf x target key) : key.columns ≠ [] := by
  rw [h.columns_eq]
  exact fun none => h.refers_ne_nil (List.map_eq_nil_iff.1 none)

/-- Keys under one name for one target share a column: both start with its first key column. -/
theorem not_disjoint (h : t.KeyOf x target key) (h' : t.KeyOf x target key') :
    ¬ key.columns.Disjoint key'.columns := by
  obtain ⟨k, rest, refers⟩ := List.exists_cons_of_ne_nil h.refers_ne_nil
  obtain ⟨k', rest', refers'⟩ := List.exists_cons_of_ne_nil h'.refers_ne_nil
  have first : k = k' := by
    have part := h.refers
    have part' := h'.refers
    rw [refers] at part
    rw [refers'] at part'
    obtain ⟨_, split⟩ := part
    obtain ⟨_, split'⟩ := part'
    exact (List.cons.inj (split.trans split'.symm)).1
  intro disjoint
  refine disjoint (a := s!"{x}_{k}") ?_ ?_
  · rw [h.columns_eq, refers]
    exact List.mem_cons_self
  · rw [h'.columns_eq, refers', first]
    exact List.mem_cons_self

/-- Of two keys of a table the names are the same just if the joined columns are. -/
theorem name_eq_iff (h : t.KeyOf x target key) (h' : t.KeyOf x' target' key') :
    key.name = key'.name ↔ key.joined = key'.joined := by
  rw [h.name_eq, h'.name_eq]
  change t.name ++ "_" ++ key.joined ++ "_fk" = t.name ++ "_" ++ key'.joined ++ "_fk" ↔ _
  rw [String.append_left_inj, String.append_right_inj]

/-- The joined columns begin with the name that they are made under. -/
theorem exists_joined (h : t.KeyOf x target key) :
    ∃ rest : String, key.joined = s!"{x}_{rest}" := by
  obtain ⟨k, rest, refers⟩ := List.exists_cons_of_ne_nil h.refers_ne_nil
  have columns := h.columns_eq
  rw [refers, List.map_cons] at columns
  rw [ForeignKey.joined, columns]
  cases rest with
  | nil => exact ⟨k, String.intercalate_singleton⟩
  | cons l rest =>
      rw [List.map_cons, String.intercalate_cons_cons]
      refine ⟨k ++ "_" ++ "_".intercalate (s!"{x}_{l}" :: rest.map fun k => s!"{x}_{k}"), ?_⟩
      change x ++ "_" ++ k ++ "_" ++ _ = x ++ "_" ++ (k ++ "_" ++ _)
      simp only [String.append_assoc]

/-- Keys of one name are made under one name, or one of the names goes on where the other ends. -/
theorem continues_of_name_eq (h : t.KeyOf x target key) (h' : t.KeyOf x' target' key')
    (same : key.name = key'.name) : x = x' ∨ Continues x x' ∨ Continues x' x := by
  obtain ⟨p, joined⟩ := h.exists_joined
  obtain ⟨q, joined'⟩ := h'.exists_joined
  have texts := (h.name_eq_iff h').1 same
  rw [joined, joined'] at texts
  exact Naming.eq_or_continues texts

/-- Of two keys that have one name and no column in common, one has several columns. -/
theorem length_of_name_eq (h : t.KeyOf x target key) (h' : t.KeyOf x' target' key')
    (disjoint : key.columns.Disjoint key'.columns) (same : key.name = key'.name) :
    1 < key.columns.length ∨ 1 < key'.columns.length := by
  by_contra short
  rw [not_or, not_lt, not_lt] at short
  have one : ∀ {x target key}, t.KeyOf x target key → key.columns.length ≤ 1 →
      key.columns = [key.joined] := by
    intro x target key h short
    obtain ⟨c, columns⟩ := List.length_eq_one_iff.1
      (le_antisymm short (List.length_pos_iff.2 h.columns_ne_nil))
    rw [ForeignKey.joined, columns, String.intercalate_singleton]
  have texts := (h.name_eq_iff h').1 same
  rw [one h short.1, one h' short.2, texts] at disjoint
  exact disjoint List.mem_cons_self List.mem_cons_self

end KeyOf

/-- The foreign keys of a table with the relations that they are made for: each key has a relation of
its own name, and columns of its own. -/
structure HostedBy (t : Table) (properties : List MappedProperty) (tables : String → Option Table)
    (hosts : List (Relation × ForeignKey)) : Prop where
  keys_eq : hosts.map (·.2) = t.constraints
  names : (hosts.map (·.1.name)).Nodup
  apart : hosts.Pairwise fun h h' => h.2.columns.Disjoint h'.2.columns
  each : ∀ h ∈ hosts, .relation h.1 ∈ properties
    ∧ ∃ target, tables h.1.target = some target ∧ t.KeyOf h.1.name target h.2

namespace HostedBy

variable {properties : List MappedProperty} {tables tables' : String → Option Table}
  {hosts : List (Relation × ForeignKey)}

theorem mono (h : t.HostedBy properties tables hosts)
    (more : ∀ n target, tables n = some target → tables' n = some target) :
    t.HostedBy properties tables' hosts :=
  { h with
    each := fun host mem => (h.each host mem).imp_right fun ⟨target, there, key⟩ =>
      ⟨target, more _ target there, key⟩ }

/-- Keys of one name belong to relations of which one goes on where the other ends, and one of the
keys has several columns. -/
theorem pairwise_names (h : t.HostedBy properties tables hosts) :
    hosts.Pairwise fun a b => a.2.name = b.2.name →
      (Continues a.1.name b.1.name ∨ Continues b.1.name a.1.name)
        ∧ (1 < a.2.columns.length ∨ 1 < b.2.columns.length) := by
  have names : hosts.Pairwise fun a b => a.1.name ≠ b.1.name := List.pairwise_map.1 h.names
  refine (names.and h.apart).imp_of_mem fun {a b} first second => ?_
  rintro ⟨other, disjoint⟩ same
  obtain ⟨_, target, _, key⟩ := h.each a first
  obtain ⟨_, target', _, key'⟩ := h.each b second
  exact ⟨(key.continues_of_name_eq key' same).resolve_left other,
    key.length_of_name_eq key' disjoint same⟩

/-- Where all keys have one column, or no relation goes on where another ends, the names of the keys
are different. -/
theorem nodup_names (h : t.HostedBy properties tables hosts)
    (plain : (∀ key ∈ t.constraints, key.columns.length = 1) ∨
      ∀ a ∈ hosts, ∀ b ∈ hosts, ¬ Continues a.1.name b.1.name) :
    (t.constraints.map (·.name)).Nodup := by
  rw [← h.keys_eq, List.map_map]
  refine List.pairwise_map.2 (h.pairwise_names.imp_of_mem fun {a b} first second told same => ?_)
  obtain ⟨goesOn, long⟩ := told same
  rcases plain with short | apart
  · have one : ∀ a ∈ hosts, a.2.columns.length = 1 := fun a mem =>
      short a.2 (h.keys_eq ▸ List.mem_map_of_mem mem)
    rw [one a first, one b second] at long
    exact long.elim (lt_irrefl 1) (lt_irrefl 1)
  · exact goesOn.elim (apart a first b second) (apart b second a first)

/-- Each key is found under its name just if the names are different. -/
theorem nodup_names_iff (h : t.HostedBy properties tables hosts) :
    (t.constraints.map (·.name)).Nodup ↔
      ∀ key ∈ t.constraints, t.constraint? key.name = some key := by
  refine ⟨fun distinct key mem => find?_key_of_mem distinct mem, fun each => ?_⟩
  rw [← h.keys_eq, List.map_map]
  refine List.pairwise_map.2 (h.apart.imp_of_mem fun {a b} first second disjoint same => ?_)
  have found := each a.2 (h.keys_eq ▸ List.mem_map_of_mem first)
  have found' := each b.2 (h.keys_eq ▸ List.mem_map_of_mem second)
  rw [show a.2.name = b.2.name from same, found', Option.some.injEq] at found
  rw [found] at disjoint
  obtain ⟨_, _, _, key⟩ := h.each a first
  obtain ⟨c, mem⟩ := List.exists_mem_of_ne_nil _ key.columns_ne_nil
  exact disjoint mem mem

end HostedBy

/-- Keys that are made under names, with a target for each name, have different names if they have no
column in common. -/
theorem exists_hosts {properties : List MappedProperty} {tables : String → Option Table}
    {leads : String → Option String} {keys : List ForeignKey}
    (apart : keys.Pairwise fun key key' => key.columns.Disjoint key'.columns)
    (each : ∀ key ∈ keys, ∃ relation, .relation relation ∈ properties
      ∧ leads relation.name = some relation.target
      ∧ ∃ target, tables relation.target = some target ∧ t.KeyOf relation.name target key) :
    ∃ hosts : List (Relation × ForeignKey), hosts.map (·.2) = keys ∧ (hosts.map (·.1.name)).Nodup
      ∧ ∀ h ∈ hosts, .relation h.1 ∈ properties ∧ leads h.1.name = some h.1.target
        ∧ ∃ target, tables h.1.target = some target ∧ t.KeyOf h.1.name target h.2 := by
  induction keys with
  | nil => exact ⟨[], rfl, .nil, nofun⟩
  | cons key keys ih =>
      obtain ⟨first, rest⟩ := List.pairwise_cons.1 apart
      obtain ⟨hosts, keys_eq, names, hosted⟩ := ih rest fun key mem => each key (.tail _ mem)
      obtain ⟨relation, mem, led, target, there, made⟩ := each key List.mem_cons_self
      refine ⟨(relation, key) :: hosts, by rw [List.map_cons, keys_eq], ?_, ?_⟩
      · rw [List.map_cons, List.nodup_cons]
        refine ⟨fun again => ?_, names⟩
        -- A relation of the name leads to the same target, so its key would share a column.
        obtain ⟨host, inside, same⟩ := List.mem_map.1 again
        obtain ⟨_, led', target', there', made'⟩ := hosted host inside
        rw [same, led, Option.some.injEq] at led'
        rw [← led', there, Option.some.injEq] at there'
        subst there'
        rw [same] at made'
        exact made.not_disjoint made' (first host.2 (keys_eq ▸ List.mem_map_of_mem inside))
      · rintro host (_ | ⟨_, inside⟩)
        · exact ⟨mem, led, target, there, made⟩
        · exact hosted host inside

end Table

/-! ## Keys in the making -/

/-- The drafts of a unit in the middle of building: the columns of a table are those of the fields and
then, key by key, those of the foreign keys, and every key is made under a relationship of its
resource. -/
structure KeysNamed (D : Roster Descriptor) (generated drafts : Roster Model) : Prop where
  distinct : ColumnsDistinct drafts
  columns : ∀ n m t, drafts.get? n = some m → m.table = some t → ∃ d, D.get? n = some d
    ∧ t.columnNames = d.fieldNames ++ t.constraints.flatMap (·.columns)
  keys : ∀ n m t, drafts.get? n = some m → m.table = some t → ∀ key ∈ t.constraints,
    ∃ d x r target, D.get? n = some d ∧ d.relationship? x = some r
      ∧ knownTable generated drafts r.target = some target ∧ t.KeyOf x target key

section Making

variable {D : Roster Descriptor} {site : BuildSite} {generated drafts drafts' : Roster Model}
  {d : Descriptor} {b : RelationshipBuilder} {r : Relationship} {owner target : Table}

theorem KeyDue.keyOf (due : KeyDue D site drafts d b r owner target) :
    (b.keyedTable r owner target).KeyOf b.name target (b.foreignKey r owner target) where
  name_eq := rfl
  columns_eq := by
    simp only [RelationshipBuilder.foreignKey, List.map_map]
    rfl
  refers := List.prefix_rfl
  refers_ne_nil := fun none => due.nonempty (List.map_eq_nil_iff.1 none)

/-- What the tables of drafts decide, a new property does not change. -/
theorem KeysNamed.congr (same : SameTables drafts drafts') (h : KeysNamed D generated drafts) :
    KeysNamed D generated drafts' := by
  have before : ∀ n m' t, drafts'.get? n = some m' → m'.table = some t →
      ∃ m, drafts.get? n = some m ∧ m.table = some t := by
    intro n m' t after table
    have tables := same n
    rw [after, Option.map_some, table, eq_comm, Option.map_eq_some_iff] at tables
    exact tables
  refine ⟨?_, ?_, ?_⟩
  · intro n m' t after table
    obtain ⟨m, found, table⟩ := before n m' t after table
    exact h.distinct n m t found table
  · intro n m' t after table
    obtain ⟨m, found, table⟩ := before n m' t after table
    exact h.columns n m t found table
  · intro n m' t after table key mem
    obtain ⟨m, found, table⟩ := before n m' t after table
    obtain ⟨d, x, r, target, hd, hr, known, made⟩ := h.keys n m t found table key mem
    exact ⟨d, x, r, target, hd, hr, (Generation.knownTable_congr same _).trans known, made⟩

/-- A new key leaves the keys named. -/
theorem KeysNamed.keyed (h : KeysNamed D site.generated drafts)
    (due : KeyDue D site drafts d b r owner target) :
    KeysNamed D site.generated (site.putOwnerTable drafts (b.keyedTable r owner target)) := by
  have grows := b.grows_keyedTable r owner target
  have grown := BuildSite.draftsGrow_putOwnerTable due.linked.distinct due.here grows
  obtain ⟨m₀, found₀, table₀⟩ := BuildSite.ownerTable_eq_ok.1 due.here
  have known := targetTable_eq_ok_iff_known.1 due.there
  -- What was there has grown with the drafts, the target of the new key too.
  have later : ∀ {n m t t'}, drafts.get? n = some m → m.table = some t → t.Grows t' →
      ∀ key ∈ t.constraints, ∃ d x r' target', D.get? n = some d ∧ d.relationship? x = some r'
        ∧ knownTable site.generated (site.putOwnerTable drafts (b.keyedTable r owner target))
            r'.target = some target' ∧ t'.KeyOf x target' key := by
    intro n m t t' hm ht first key mem
    obtain ⟨d', x, r', target', hd, hr, known', made⟩ := h.keys n m t hm ht key mem
    obtain ⟨target'', known'', second⟩ := grown.knownTable known'
    exact ⟨d', x, r', target'', hd, hr, known'', made.grows first second⟩
  have now : ∀ n m t, (site.putOwnerTable drafts (b.keyedTable r owner target)).get? n = some m →
      m.table = some t → (n = site.owner ∧ t = b.keyedTable r owner target) ∨
        drafts.get? n = some m := by
    intro n m t found table
    refine (BuildSite.model_putOwnerTable found₀ found).imp_left fun owner => ⟨owner.1, ?_⟩
    rw [owner.2] at table
    exact (Option.some.inj table).symm
  refine ⟨?_, ?_, ?_⟩
  · intro n m t hm ht
    rcases now n m t hm ht with ⟨_, rfl⟩ | old
    · rw [RelationshipBuilder.columnNames_keyedTable]
      exact due.free
    · exact h.distinct n m t old ht
  · intro n m t hm ht
    rcases now n m t hm ht with ⟨rfl, rfl⟩ | old
    · obtain ⟨d', described, columns⟩ := h.columns _ m₀ owner found₀ table₀
      refine ⟨d', described, ?_⟩
      rw [RelationshipBuilder.columnNames_keyedTable, columns]
      simp [RelationshipBuilder.keyedTable, RelationshipBuilder.foreignKey]
    · exact h.columns n m t old ht
  · intro n m t hm ht key mem
    rcases now n m t hm ht with ⟨rfl, rfl⟩ | old
    · rcases List.mem_append.1 mem with before | new
      · exact later found₀ table₀ grows key before
      · obtain ⟨target', known', second⟩ := grown.knownTable known
        rw [List.mem_singleton.1 new]
        exact ⟨d, b.name, r, target', due.found, due.declared, known',
          due.keyOf.grows (.refl _) second⟩
    · exact later old ht (.refl t) key mem

end Making

namespace Generation

variable {ctx : GenerationContext} {D : Roster Descriptor} {generated start : Roster Model}
  {unit : List String} {u : Unit} {s' : Roster Descriptor × Roster Model}

/-- The tables of a unit start with the columns of the fields and without keys. -/
theorem keysNamed_drafts (distinct : unit.Nodup)
    (drafted : Generation.drafts ctx D unit = .ok start) (linked : Linked D generated start) :
    KeysNamed D generated start := by
  have first : ∀ n m t, start.get? n = some m → m.table = some t →
      ∃ d, D.get? n = some d ∧ startTable ctx d n = t := by
    intro n m t found table
    obtain ⟨_, d, _, described, _, rfl⟩ := exists_startModel drafted distinct found
    exact ⟨d, described, Option.some.inj table⟩
  refine ⟨linked.columns, ?_, ?_⟩
  · intro n m t found table
    obtain ⟨d, described, rfl⟩ := first n m t found table
    refine ⟨d, described, ?_⟩
    simp [startTable, Table.columnNames, fieldColumns, Descriptor.fieldNames]
  · intro n m t found table key mem
    obtain ⟨d, _, rfl⟩ := first n m t found table
    cases mem

/-- In a unit that is built the keys are named, and every relationship has its relation. -/
theorem keysNamed_runPhases (distinct : D.names.Nodup)
    (wf : ∀ n d, D.get? n = some d → d.WellFormed) (old : ColumnsDistinct generated)
    (linked : Linked D generated start) (named : KeysNamed D generated start)
    (names : start.names = unit) (h : (runPhases generated unit).Answers (D, start) u s') :
    KeysNamed D generated s'.2 ∧ ∀ n ∈ unit, Represented D s'.2 n := by
  have keeps : ∀ {site drafts d b r owner target}, site.generated = generated →
      KeyDue D site drafts d b r owner target → KeysNamed D generated drafts →
        KeysNamed D generated (site.putOwnerTable drafts (b.keyedTable r owner target)) := by
    rintro site drafts d b r owner target rfl due named
    exact named.keyed due
  obtain ⟨_, represented, named'⟩ := represented_runPhases keeps KeysNamed.congr distinct wf old
    linked named names h
  exact ⟨named', represented⟩

end Generation

/-! ## Cached keys -/

/-- A cache in which every foreign key belongs to a relation of its own. -/
structure KeysHosted (models : Roster Model) : Prop where
  distinct : ColumnsDistinct models
  hosted : ∀ n m t, models.get? n = some m → m.table = some t →
    ∃ hosts, t.HostedBy m.properties (Generation.tablesOf models) hosts

/-- A cache with more models whose keys belong to relations. -/
theorem KeysHosted.extend {models models' : Roster Model} (h : KeysHosted models)
    (kept : ∀ n m, models.get? n = some m → models'.get? n = some m)
    (origin : ∀ n m t, models'.get? n = some m → m.table = some t → models.get? n = some m ∨
      (t.columnNames.Nodup
        ∧ ∃ hosts, t.HostedBy m.properties (Generation.tablesOf models') hosts)) :
    KeysHosted models' := by
  have more : ∀ n t, Generation.tablesOf models n = some t →
      Generation.tablesOf models' n = some t := by
    intro n t there
    obtain ⟨m, cached, table⟩ := Option.bind_eq_some_iff.1 there
    exact Option.bind_eq_some_iff.2 ⟨m, kept n m cached, table⟩
  constructor
  · intro n m t found table
    rcases origin n m t found table with old | new
    · exact h.distinct n m t old table
    · exact new.1
  · intro n m t found table
    rcases origin n m t found table with old | new
    · obtain ⟨hosts, hosted⟩ := h.hosted n m t old table
      exact ⟨hosts, hosted.mono more⟩
    · exact new.2

namespace Generation

variable {w : Workspace} {n : String} {D' : Roster Descriptor} {finished : Roster Model} {m : Model}
  {t : Table}

/-- The keys of a member that is built belong to relations of its own. -/
theorem exists_hosts_of_named (named : KeysNamed D' w.models finished)
    (represented : Represented D' finished n) (found : finished.get? n = some m)
    (table : m.table = some t) :
    ∃ hosts, t.HostedBy m.properties (knownTable w.models finished) hosts := by
  obtain ⟨d, _, columns⟩ := named.columns n m t found table
  have distinct := named.distinct n m t found table
  rw [columns, List.nodup_append] at distinct
  have apart := (List.nodup_flatMap.1 distinct.2.1).2
  let leads : String → Option String := fun x =>
    (D'.get? n).bind fun d => (d.relationship? x).map (·.target)
  have each : ∀ key ∈ t.constraints, ∃ relation, .relation relation ∈ m.properties
      ∧ leads relation.name = some relation.target ∧ ∃ target,
        knownTable w.models finished relation.target = some target
          ∧ t.KeyOf relation.name target key := by
    intro key mem
    obtain ⟨d, x, r, target, hd, hr, there, made⟩ := named.keys n m t found table key mem
    obtain ⟨m', relation, found', inside, rfl, same⟩ := represented d x r hd hr
    obtain rfl : m = m' := Option.some.inj (found.symm.trans found')
    refine ⟨relation, inside, ?_, target, same ▸ there, made⟩
    simp only [leads, hd, Option.bind_some, hr, Option.map_some, same]
  obtain ⟨hosts, keys_eq, names, hosted⟩ := Table.exists_hosts apart each
  refine ⟨hosts, keys_eq, names, ?_, fun h mem => (hosted h mem).imp_right And.right⟩
  rw [← keys_eq] at apart
  have pairs := List.pairwise_map.1 apart
  exact pairs

end Generation

namespace BuiltUnit

open Generation

variable {ctx : GenerationContext} {w w' : Workspace} {unit : List String}
  {D' D₁ : Roster Descriptor} {start finished : Roster Model}

theorem knownTable_eq (built : BuiltUnit ctx w w' unit D' start finished D₁) :
    knownTable w.models finished = tablesOf w'.models := by
  funext n
  by_cases member : n ∈ unit
  · exact (built.tablesOf_eq_known member).symm
  · have none : finished.get? n = none := by
      rw [Roster.get?_eq_none_iff, built.compiled.names_eq]
      exact member
    rw [knownTable, tablesOf, built.compiled.get?_models, none, Option.none_or, Option.or_none]

/-- In a compiled unit the keys are named, and every relationship has its relation. -/
theorem keysNamed (built : BuiltUnit ctx w w' unit D' start finished D₁)
    (sound : Sound ctx.resources { w with descriptors := D' }) (old : ColumnsDistinct w.models) :
    KeysNamed D' w.models finished ∧ ∀ n ∈ unit, Represented D' finished n := by
  have linked := linked_drafts built.distinct sound.allWellFormed built.compiled.drafted w.models
  exact keysNamed_runPhases sound.descriptors_distinct sound.allWellFormed old linked
    (keysNamed_drafts built.distinct built.compiled.drafted linked)
    (names_drafts built.compiled.drafted) built.compiled.built

/-- Compiling a unit leaves every key with a relation of its own. -/
theorem keysHosted (built : BuiltUnit ctx w w' unit D' start finished D₁)
    (sound : Sound ctx.resources { w with descriptors := D' }) (h : KeysHosted w.models) :
    KeysHosted w'.models := by
  obtain ⟨named, represented⟩ := built.keysNamed sound h.distinct
  refine h.extend (fun n m cached => ?_) fun n m t found table => ?_
  · rw [built.compiled.get?_models]
    exact Option.or_eq_some_iff.2 (.inl cached)
  · rw [built.compiled.get?_models] at found
    refine (Option.or_eq_some_iff.1 found).imp_right fun new => ?_
    have member : n ∈ unit := built.compiled.names_eq ▸ Roster.mem_names_of_get? new.2
    rw [← built.knownTable_eq]
    exact ⟨named.distinct n m t new.2 table,
      exists_hosts_of_named named (represented n member) new.2 table⟩

end BuiltUnit

namespace Generation

variable {ctx : GenerationContext} {w : Workspace} {name : String} {r : Resource} {d : Descriptor}

/-- An abstract model has no table. -/
theorem keysHosted_stored (uncached : w.models.get? name = none) (h : KeysHosted w.models) :
    KeysHosted (stored w name (abstractModel ctx r d name)).models := by
  refine h.extend (fun n m cached => (get?_models_stored uncached).2 (.inl cached)) ?_
  intro n m t found table
  rcases (get?_models_stored uncached).1 found with old | ⟨_, rfl⟩
  · exact .inl old
  · cases table

theorem kept_keysHosted : Kept ctx fun w => KeysHosted w.models where
  bound := fun _ _ hosted => hosted
  compiled := by
    intro w w' unit D' start finished D₁ sound built _ hosted
    obtain ⟨members, steps, _⟩ := built.steps sound
    exact built.keysHosted (sound.bound steps) hosted
  stored := fun _ uncached _ _ _ hosted => keysHosted_stored uncached hosted

end Generation

namespace Compiler

open Generation

theorem keysHosted_run (settings : Settings) (requests : List Request) :
    KeysHosted ((new settings).run requests).workspace.models := by
  refine cache_run (fun ctx => keeps_of_stored fun _ uncached _ _ => keysHosted_stored uncached)
    (fun ctx => keeps_of_kept kept_keysHosted) ⟨?_, ?_⟩ settings requests
  · intro n m t found
    cases found
  · intro n m t found
    cases found

/-- Wherever a history leads: the foreign keys of a cached table belong one by one to relations of
different names, and no two of them have a column in common.  Two of them have one name just if their
columns read the same when joined.  Then one of the keys has several columns, and one of the
relations goes on where the other ends; if that never happens, the names are different and each key
is found under its name. -/
theorem constraint_names (settings : Settings) (requests : List Request) (n : String) (m : Model)
    (t : Table) (cached : ((new settings).run requests).model? n = some m)
    (table : m.table = some t) :
    ∃ hosts, t.HostedBy m.properties (tablesOf ((new settings).run requests).workspace.models) hosts
      ∧ (∀ a ∈ hosts, ∀ b ∈ hosts, a.2.name = b.2.name ↔ a.2.joined = b.2.joined)
      ∧ hosts.Pairwise (fun a b => a.2.name = b.2.name →
          (Continues a.1.name b.1.name ∨ Continues b.1.name a.1.name)
            ∧ (1 < a.2.columns.length ∨ 1 < b.2.columns.length))
      ∧ ((t.constraints.map (·.name)).Nodup ↔
          ∀ key ∈ t.constraints, t.constraint? key.name = some key)
      ∧ ((∀ key ∈ t.constraints, key.columns.length = 1) ∨
            (∀ a ∈ hosts, ∀ b ∈ hosts, ¬ Continues a.1.name b.1.name) →
          (t.constraints.map (·.name)).Nodup) := by
  obtain ⟨hosts, hosted⟩ := (keysHosted_run settings requests).hosted n m t cached table
  refine ⟨hosts, hosted, fun a first b second => ?_, hosted.pairwise_names, hosted.nodup_names_iff,
    hosted.nodup_names⟩
  obtain ⟨_, _, _, key⟩ := hosted.each a first
  obtain ⟨_, _, _, key'⟩ := hosted.each b second
  exact key.name_eq_iff key'

/-- Books with an author and an editor. -/
def editions : List Request :=
  [.declare { name := "Person" },
    .declare { name := "Book"
               properties := [⟨"author", 1, .relationship (.new .manyToOne "Person")⟩,
                 ⟨"editor", 2, .relationship (.new .manyToOne "Person")⟩] },
    .generate "Book"]

theorem constraint_names_editions :
    ∃ m t, ((new {}).run editions).model? "Book" = some m ∧ m.table = some t
      ∧ t.constraints.map (·.name) = ["book_author_id_fk", "book_editor_id_fk"]
      ∧ ∀ key ∈ t.constraints, t.constraint? key.name = some key := by
  have made : (((new {}).run editions).model? "Book").bind (fun m => m.table.map fun t =>
      (t.constraints.map (·.name), t.constraints.map (·.columns.length)))
        = some (["book_author_id_fk", "book_editor_id_fk"], [1, 1]) := by cbv
  obtain ⟨m, cached, here⟩ := Option.bind_eq_some_iff.1 made
  obtain ⟨t, table, told⟩ := Option.map_eq_some_iff.1 here
  obtain ⟨names, lengths⟩ := Prod.mk.inj told
  have short : ∀ key ∈ t.constraints, key.columns.length = 1 := by
    intro key mem
    have length : key.columns.length ∈ t.constraints.map (·.columns.length) :=
      List.mem_map_of_mem mem
    rw [lengths] at length
    simpa using length
  obtain ⟨hosts, _, _, _, found, plain⟩ := constraint_names {} editions "Book" m t cached table
  exact ⟨m, t, cached, table, names, found.1 (plain (.inl short))⟩

/-- A key of two columns, and a key of a relation that goes on with the first of them. -/
def forked : List Request :=
  let key (name : String) (order : Nat) : DeclaredProperty :=
    ⟨name, order, .field { storage := .integer, options := { primaryKey := true } }⟩
  [.declare { name := "Pair", properties := [key "a" 1, key "b" 2] },
    .declare { name := "Other", properties := [key "b" 3] },
    .declare { name := "T"
               properties := [⟨"x", 4, .relationship (.new .manyToOne "Pair")⟩,
                 ⟨"x_a_x", 5, .relationship (.new .manyToOne "Other")⟩] },
    .generate "T"]

/-- Two keys of one table can have one name, and not each of them is found under it. -/
theorem constraint_names_forked :
    ∃ m t, ((new {}).run forked).model? "T" = some m ∧ m.table = some t
      ∧ t.constraints.map (·.name) = ["t_x_a_x_b_fk", "t_x_a_x_b_fk"]
      ∧ ¬ (t.constraints.map (·.name)).Nodup
      ∧ ∃ key ∈ t.constraints, t.constraint? key.name ≠ some key := by
  have made : (((new {}).run forked).model? "T").bind (fun m => m.table.map fun t =>
      t.constraints.map (·.name)) = some ["t_x_a_x_b_fk", "t_x_a_x_b_fk"] := by cbv
  obtain ⟨m, cached, here⟩ := Option.bind_eq_some_iff.1 made
  obtain ⟨t, table, names⟩ := Option.map_eq_some_iff.1 here
  have twice : ¬ (t.constraints.map (·.name)).Nodup := by
    rw [names]
    decide
  obtain ⟨hosts, hosted⟩ := (keysHosted_run {} forked).hosted "T" m t cached table
  refine ⟨m, t, cached, table, names, twice, ?_⟩
  by_contra none
  push Not at none
  exact twice (hosted.nodup_names_iff.2 none)

end Compiler

end ResourceTables
