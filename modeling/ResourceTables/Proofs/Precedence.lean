/-
# `ResourceTables.Proofs.Precedence` — which declaration of a name a resource ends up with

What a resource declares itself counts before anything that it inherits.  What it inherits is entered
in the order of making, however far the ancestors are: of several declarations of a name the one made
last counts, and the nearest only among those of one time.  So the nearest counts just if no farther
ancestor has been declared again since.
-/
import Mathlib
import ResourceTables.Proofs.Workspaces

namespace ResourceTables

/-! ## The last of a kind among things in the order of their times -/

section Times

variable {α : Type} {time : α → Nat} {p : α → Bool} {xs before after : List α} {a z : α}

/-- Things in the order of their times; those of one time keep their order. -/
def byTime (time : α → Nat) (xs : List α) : List α := xs.mergeSort fun a b => time a ≤ time b

theorem mem_byTime {x : α} : x ∈ byTime time xs ↔ x ∈ xs :=
  (List.mergeSort_perm xs _).mem_iff

theorem pairwise_byTime : (byTime time xs).Pairwise fun a b => time a ≤ time b := by
  refine (List.pairwise_mergeSort ?_ ?_ xs).imp fun h => by simpa using h
  · exact fun a b c => by simpa using Nat.le_trans
  · exact fun a b => by simpa using Nat.le_total _ _

/-- Sorting leaves things that all have one time as they come. -/
theorem filter_byTime {q : α → Bool} {t : Nat} (tied : ∀ x ∈ xs, q x = true → time x = t) :
    (byTime time xs).filter q = xs.filter q := by
  have inside : (xs.filter q).Sublist (byTime time xs) := by
    refine List.sublist_mergeSort ?_ ?_ ?_ List.filter_sublist
    · exact fun a b c => by simpa using Nat.le_trans
    · exact fun a b => by simpa using Nat.le_total _ _
    · refine List.pairwise_of_forall_mem_list fun a ha b hb => ?_
      rw [List.mem_filter] at ha hb
      simp [tied a ha.1 ha.2, tied b hb.1 hb.2]
  have sub : (xs.filter q).Sublist ((byTime time xs).filter q) := by
    simpa using inside.filter q
  refine (sub.eq_of_length ?_).symm
  exact ((List.mergeSort_perm xs _).filter q).length_eq.symm

/-- The last of a kind comes after all others of it. -/
theorem time_le_of_last (h : (byTime time xs).reverse.find? p = some z) {b : α} (mem : b ∈ xs)
    (hb : p b = true) : time b ≤ time z := by
  obtain ⟨_, later, earlier, split, rest⟩ := List.find?_eq_some_iff_append.1 h
  have whole : byTime time xs = earlier.reverse ++ z :: later.reverse := by
    rw [← List.reverse_reverse (byTime time xs), split]
    simp
  have sorted : (earlier.reverse ++ z :: later.reverse).Pairwise fun a b => time a ≤ time b :=
    whole ▸ pairwise_byTime
  rcases List.mem_append.1 (whole ▸ mem_byTime.2 mem : b ∈ earlier.reverse ++ z :: later.reverse) with
    first | last
  · exact (List.pairwise_append.1 sorted).2.2 b first z List.mem_cons_self
  · rcases List.mem_cons.1 last with rfl | last
    · exact Nat.le_refl _
    · have never := rest b (List.mem_reverse.1 last)
      rw [hb] at never
      cases never

theorem last_byTime_iff (split : xs = before ++ a :: after) (ha : p a = true)
    (none : ∀ x ∈ after, p x = false) :
    (byTime time xs).reverse.find? p = some a ↔ ∀ b ∈ before, p b = true → time b ≤ time a := by
  have mem : a ∈ xs := split ▸ List.mem_append_right _ List.mem_cons_self
  constructor
  · intro h b hb kind
    exact time_le_of_last h (split ▸ List.mem_append_left _ hb) kind
  · intro latest
    obtain ⟨z, found⟩ := Option.isSome_iff_exists.1
      (List.find?_isSome.2 ⟨a, List.mem_reverse.2 (mem_byTime.2 mem), ha⟩)
    have kind : p z = true := List.find?_some found
    have least : time a ≤ time z := time_le_of_last found mem ha
    have most : time z ≤ time a := by
      have there : z ∈ xs := mem_byTime.1 (List.mem_reverse.1 (List.mem_of_find?_eq_some found))
      rcases List.mem_append.1 (split ▸ there) with first | last
      · exact latest z first kind
      · rcases List.mem_cons.1 last with rfl | last
        · exact Nat.le_refl _
        · rw [none z last] at kind
          cases kind
    have tied : time z = time a := Nat.le_antisymm most least
    -- Among those of one time the order is that of the unsorted list.
    let q : α → Bool := fun x => p x && time x == time a
    have same : (byTime time xs).reverse.find? q = xs.reverse.find? q := by
      rw [← List.head?_filter, ← List.head?_filter, List.filter_reverse, List.filter_reverse,
        filter_byTime (t := time a)]
      intro x _ hx
      simpa [q] using (Bool.and_eq_true_iff.1 hx).2
    have last : (byTime time xs).reverse.find? q = some z := by
      obtain ⟨_, later, earlier, shape, rest⟩ := List.find?_eq_some_iff_append.1 found
      refine List.find?_eq_some_iff_append.2 ⟨by simp [q, kind, tied], later, earlier, shape, ?_⟩
      intro x hx
      have never := rest x hx
      simp only [Bool.not_eq_true'] at never
      simp [q, never]
    have first : xs.reverse.find? q = some a := by
      refine List.find?_eq_some_iff_append.2 ⟨by simp [q, ha], after.reverse, before.reverse, ?_, ?_⟩
      · simp [split]
      · intro x hx
        simp [q, none x (List.mem_reverse.1 hx)]
    rw [last, first] at same
    rw [found, same]

end Times

/-! ## What a descriptor holds under a name -/

namespace Descriptor

/-- The property under a name and the resource that declares it. -/
def holding? (d : Descriptor) (n : String) : Option (Property × String) :=
  ((d.fieldNamed? n).map fun e => (.field e.field, e.declaredBy)).or
    ((d.relationshipNamed? n).map fun e => (.relationship e.relationship, e.declaredBy))

variable {d d' : Descriptor} {p : CollectedProperty} {n : String} {u : Unit}

theorem declaredBy?_eq_holding? (d : Descriptor) (n : String) :
    d.declaredBy? n = (d.holding? n).map (·.2) := by
  unfold declaredBy? holding?
  cases d.fieldNamed? n <;> cases d.relationshipNamed? n <;> rfl

/-- A property that is entered is held under its name, and under no other name anything changes. -/
theorem holding?_entered (d : Descriptor) (p : CollectedProperty) (n : String) :
    (d.entered p).holding? n
      = if n = p.name then some (p.property, p.declaredBy) else d.holding? n := by
  cases h : p.property with
  | field f =>
      have fields : (d.entered p).fieldNamed? n = if n = p.name
          then some { name := p.name, field := f, declaredBy := p.declaredBy }
          else d.fieldNamed? n := by
        simp only [entered, put, h, fieldNamed?]
        exact find?_putFirst rfl
      have relationships : (d.entered p).relationshipNamed? n = if n = p.name
          then none else d.relationshipNamed? n := by
        simp only [entered, put, h, relationshipNamed?]
        exact find?_filter_key_bne
      rw [holding?, fields, relationships]
      by_cases same : n = p.name
      · simp [same]
      · simp [same, holding?]
  | relationship r =>
      have fields : (d.entered p).fieldNamed? n = if n = p.name
          then none else d.fieldNamed? n := by
        simp only [entered, put, h, fieldNamed?]
        exact find?_filter_key_bne
      have relationships : (d.entered p).relationshipNamed? n = if n = p.name
          then some { name := p.name, relationship := r, declaredBy := p.declaredBy }
          else d.relationshipNamed? n := by
        simp only [entered, put, h, relationshipNamed?]
        exact find?_putFirst rfl
      rw [holding?, fields, relationships]
      by_cases same : n = p.name
      · simp [same]
      · simp [same, holding?]

/-- The last property of a name in a list. -/
def last? (n : String) (ps : List CollectedProperty) : Option CollectedProperty :=
  ps.reverse.find? (·.name == n)

theorem last?_append (n : String) (far near : List CollectedProperty) :
    last? n (far ++ near) = (last? n near).or (last? n far) := by
  simp only [last?, List.reverse_append, List.find?_append]

/-- Once a list of properties is entered, the last of each name is held. -/
theorem holding?_registered {ps : List CollectedProperty} (wf : d.WellFormed)
    (h : (forM ps register).Answers d ⟨⟩ d') :
    d'.WellFormed ∧ ∀ n, d'.holding? n
      = ((last? n ps).map fun p => (p.property, p.declaredBy)).or (d.holding? n) := by
  refine h.forM_induction (I := fun done t => t.WellFormed ∧ ∀ n, t.holding? n
    = ((last? n done).map fun p => (p.property, p.declaredBy)).or (d.holding? n)) ?_ ?_
  · exact ⟨wf, fun n => by simp [last?]⟩
  · rintro done p rest t t' _ ⟨wf', held⟩ one
    obtain ⟨_, rfl⟩ := (answers_register wf').1 one
    refine ⟨wf'.entered p, fun n => ?_⟩
    rw [holding?_entered, last?_append, held]
    by_cases same : n = p.name
    · simp [same, last?]
    · simp [same, last?, Ne.symm same]

/-- Properties that one resource declares are entered under different names only. -/
theorem nodup_of_registered {ps : List CollectedProperty} {o : String} (wf : d.WellFormed)
    (all : ∀ p ∈ ps, p.declaredBy = o) (h : (forM ps register).Answers d ⟨⟩ d') :
    (ps.map (·.name)).Nodup := by
  have ends := h.forM_induction (I := fun done t => t.WellFormed ∧ (done.map (·.name)).Nodup ∧
    ∀ p ∈ done, t.declaredBy? p.name = some o) ⟨wf, List.nodup_nil, by simp⟩ ?_
  · exact ends.2.1
  · rintro done p rest t t' split ⟨wf', distinct, held⟩ one
    obtain ⟨new, rfl⟩ := (answers_register wf').1 one
    have own : p.declaredBy = o := all p (split ▸ List.mem_append_right _ List.mem_cons_self)
    have under : ∀ n, (t.entered p).declaredBy? n = if n = p.name then some o
        else t.declaredBy? n := by
      intro n
      rw [declaredBy?_eq_holding?, holding?_entered, declaredBy?_eq_holding?, ← own]
      by_cases same : n = p.name <;> simp [same]
    refine ⟨wf'.entered p, ?_, ?_⟩
    · rw [List.map_append, List.map_singleton, ← List.concat_eq_append]
      refine distinct.concat fun mem => ?_
      obtain ⟨before, inside, name⟩ := List.mem_map.1 mem
      exact new (own ▸ name ▸ held before inside)
    · intro q mem
      rw [under]
      rcases List.mem_append.1 mem with old | last
      · by_cases same : q.name = p.name
        · rw [if_pos same]
        · rw [if_neg same, held q old]
      · rw [List.mem_singleton.1 last, if_pos rfl]

/-- Giving a resource a primary key takes the place of nothing. -/
theorem keeps_holding_addPrimaryKey (settings : Settings) (n : String) (v : Property × String) :
    Action.Keeps (fun d => d.holding? n = some v) (Configurator.addPrimaryKey settings) := by
  refine Configurator.keeps_addPrimaryKey fun f t held => ?_
  rcases prependField_state t _ f with same | ⟨free, changed⟩
  · rw [same]
    exact held
  · rw [changed]
    have other : settings.primaryKeyColumn ≠ n := by
      rintro rfl
      rw [declaredBy?_eq_holding?, held] at free
      cases free
    simpa [holding?, fieldNamed?, relationshipNamed?, other] using held

end Descriptor

/-! ## Chains of ancestors -/

namespace Ancestry

variable {resources : Roster Resource} {resource k : Resource} {chain nearer farther : List Resource}
  {p : DeclaredProperty}

/-- A chain holds registered resources, none of them twice and none that was met before. -/
theorem chainFrom_eq_ok {name : String} {seen : List String} {parent : Option String}
    (named : ∀ n r, resources.get? n = some r → r.name = n)
    (h : chainFrom resources name seen parent = .ok chain) :
    (∀ r ∈ chain, resources.get? r.name = some r ∧ r.name ∉ seen)
      ∧ (chain.map (·.name)).Nodup := by
  fun_induction chainFrom resources name seen parent generalizing chain with
  | case1 seen =>
      cases h
      simp
  | case2 => cases h
  | case3 => cases h
  | case4 seen first new found there rest ends ih =>
      cases h
      obtain ⟨known, distinct⟩ := ih ends
      have same := named first found there
      refine ⟨?_, ?_⟩
      · intro r mem
        rcases List.mem_cons.1 mem with rfl | mem
        · exact ⟨same ▸ there, same ▸ new⟩
        · exact ⟨(known r mem).1, fun met => (known r mem).2 (List.mem_cons_of_mem _ met)⟩
      · refine List.nodup_cons.2 ⟨fun mem => ?_, distinct⟩
        obtain ⟨r, inside, name⟩ := List.mem_map.1 mem
        exact (known r inside).2 (name ▸ same ▸ List.mem_cons_self)
  | case5 => cases h

/-- A resource and its ancestors have different names. -/
theorem nodup_ancestors (named : ∀ n r, resources.get? n = some r → r.name = n)
    (h : ancestors resources resource = .ok chain) :
    ((resource :: chain).map (·.name)).Nodup := by
  obtain ⟨known, distinct⟩ := chainFrom_eq_ok named h
  refine List.nodup_cons.2 ⟨fun mem => ?_, distinct⟩
  obtain ⟨r, inside, name⟩ := List.mem_map.1 mem
  exact (known r inside).2 (name ▸ List.mem_cons_self)

/-! ## The last declaration of a name -/

/-- A declaration in a chain, as it is collected. -/
def collected (d : DeclaredProperty × String) : CollectedProperty :=
  { name := d.1.name, property := d.1.property, declaredBy := d.2 }

theorem inOrder_eq (ds : List (DeclaredProperty × String)) :
    inOrder ds = (byTime (·.1.created) ds).map collected := rfl

theorem mem_own {q : CollectedProperty} :
    q ∈ own resource ↔ ∃ p ∈ resource.properties, collected (p, resource.name) = q := by
  simp only [own, inOrder_eq, marked, List.mem_map, mem_byTime]
  constructor
  · rintro ⟨_, ⟨p, mem, rfl⟩, rfl⟩
    exact ⟨p, mem, rfl⟩
  · rintro ⟨p, mem, rfl⟩
    exact ⟨_, ⟨p, mem, rfl⟩, rfl⟩

theorem mem_inherited {q : CollectedProperty} :
    q ∈ inherited chain ↔ ∃ r ∈ chain, ∃ p ∈ r.properties, collected (p, r.name) = q := by
  simp only [inherited, inOrder_eq, marked, List.mem_map, mem_byTime, List.mem_flatMap,
    List.mem_reverse]
  constructor
  · rintro ⟨_, ⟨r, inside, p, mem, rfl⟩, rfl⟩
    exact ⟨r, inside, p, mem, rfl⟩
  · rintro ⟨r, inside, p, mem, rfl⟩
    exact ⟨_, ⟨r, inside, p, mem, rfl⟩, rfl⟩

theorem last?_own (distinct : ((own resource).map (·.name)).Nodup) (mem : p ∈ resource.properties) :
    Descriptor.last? p.name (own resource) = some (collected (p, resource.name)) := by
  have distinct' : ((own resource).reverse.map (·.name)).Nodup := by
    rw [List.map_reverse]
    exact List.nodup_reverse.2 distinct
  exact find?_key_of_mem distinct' (List.mem_reverse.2 (mem_own.2 ⟨p, mem, rfl⟩))

theorem last?_own_eq_none {n : String} (undeclared : ∀ q ∈ resource.properties, q.name ≠ n) :
    Descriptor.last? n (own resource) = none := by
  refine List.find?_eq_none.2 fun q mem => ?_
  obtain ⟨p, inside, rfl⟩ := mem_own.1 (List.mem_reverse.1 mem)
  simpa [collected] using undeclared p inside

theorem mem_marked {z : DeclaredProperty × String} :
    z ∈ chain.reverse.flatMap marked ↔ ∃ r ∈ chain, ∃ q ∈ r.properties, (q, r.name) = z := by
  simp only [marked, List.mem_flatMap, List.mem_reverse, List.mem_map]

/-- What is collected last of a name comes last among the declarations in the chain. -/
theorem last?_inherited (chain : List Resource) (n : String) :
    Descriptor.last? n (inherited chain)
      = ((byTime (·.1.created) (chain.reverse.flatMap marked)).reverse.find? (·.1.name == n)).map
          collected := by
  rw [Descriptor.last?, inherited, inOrder_eq, ← List.map_reverse, List.find?_map]
  rfl

/-- No two declarations in a chain are collected alike. -/
theorem eq_of_collected {z : DeclaredProperty × String} (distinct : (chain.map (·.name)).Nodup)
    (here : k ∈ chain) (once : (k.properties.map (·.name)).Nodup) (mem : p ∈ k.properties)
    (there : z ∈ chain.reverse.flatMap marked) (same : collected z = collected (p, k.name)) :
    z = (p, k.name) := by
  obtain ⟨r, inside, q, declared, rfl⟩ := mem_marked.1 there
  obtain rfl : r = k := List.inj_on_of_nodup_map distinct inside here
    (congrArg CollectedProperty.declaredBy same)
  rw [List.inj_on_of_nodup_map once declared mem (congrArg CollectedProperty.name same)]

/-- Of the declarations of a name in a chain the nearest comes last just if no farther one is made
later. -/
theorem last?_inherited_iff (distinct : (chain.map (·.name)).Nodup)
    (split : chain = nearer ++ k :: farther) (mem : p ∈ k.properties)
    (once : (k.properties.map (·.name)).Nodup)
    (undeclared : ∀ r ∈ nearer, ∀ q ∈ r.properties, q.name ≠ p.name) :
    Descriptor.last? p.name (inherited chain) = some (collected (p, k.name)) ↔
      ∀ a ∈ farther, ∀ q ∈ a.properties, q.name = p.name → q.created ≤ p.created := by
  obtain ⟨first, second, parts⟩ := List.append_of_mem mem
  have here : k ∈ chain := split ▸ List.mem_append_right _ List.mem_cons_self
  have line : chain.reverse.flatMap marked
      = (farther.reverse.flatMap marked ++ first.map fun q => (q, k.name)) ++ (p, k.name) ::
        ((second.map fun q => (q, k.name)) ++ nearer.reverse.flatMap marked) := by
    simp [split, marked, parts]
  have single : p.name ∉ first.map (·.name) ∧ p.name ∉ second.map (·.name) := by
    have once := once
    rw [parts, List.map_append, List.map_cons, List.nodup_append, List.nodup_cons] at once
    exact ⟨fun inside => once.2.2 _ inside _ List.mem_cons_self rfl, once.2.1.1⟩
  have last : (byTime (fun d : DeclaredProperty × String => d.1.created)
      (chain.reverse.flatMap marked)).reverse.find? (fun d => d.1.name == p.name)
        = some (p, k.name) ↔ _ := last_byTime_iff line (by simp) ?_
  · rw [last?_inherited, Option.map_eq_some_iff]
    constructor
    · rintro ⟨z, found, same⟩ a inside q declared name
      have there := mem_byTime.1 (List.mem_reverse.1 (List.mem_of_find?_eq_some found))
      rw [eq_of_collected distinct here once mem there same] at found
      refine last.1 found (q, a.name) (List.mem_append_left _ ?_) (by simpa using name)
      exact mem_marked.2 ⟨a, inside, q, declared, rfl⟩
    · intro latest
      refine ⟨_, last.2 fun z inside name => ?_, rfl⟩
      rcases List.mem_append.1 inside with far | own
      · obtain ⟨a, there, q, declared, rfl⟩ := mem_marked.1 far
        exact latest a there q declared (by simpa using name)
      · obtain ⟨q, there, rfl⟩ := List.mem_map.1 own
        exact absurd (List.mem_map.2 ⟨q, there, by simpa using name⟩) single.1
  · intro z inside
    rcases List.mem_append.1 inside with own | near
    · obtain ⟨q, there, rfl⟩ := List.mem_map.1 own
      have other : q.name ≠ p.name := fun name => single.2 (List.mem_map.2 ⟨q, there, name⟩)
      simpa using other
    · obtain ⟨r, there, q, declared, rfl⟩ := mem_marked.1 near
      simpa using undeclared r there q declared

end Ancestry

/-! ## Resources that are declared -/

namespace Compiler

open Ancestry

variable {c : Compiler} {resource : Resource} {d : Descriptor}

theorem perm_own (resource : Resource) :
    ((own resource).map (·.name)).Perm (resource.properties.map (·.name)) := by
  have names : (own resource).map (·.name)
      = (byTime (·.1.created) (marked resource)).map (·.1.name) := by
    rw [own, inOrder_eq, List.map_map]
    rfl
  have plain : resource.properties.map (·.name) = (marked resource).map (·.1.name) := by
    rw [marked, List.map_map]
    rfl
  rw [names, plain]
  exact (List.mergeSort_perm _ _).map _

/-- A resource that is filled in declares each of its names once. -/
theorem nodup_of_fill (h : (c.fill resource).Answers (.ofResource resource) () d) :
    (resource.properties.map (·.name)).Nodup := by
  obtain ⟨chain, methods, d₁, known, _, entered, configured⟩ := answers_fill.1 h
  obtain ⟨t, far, near⟩ := Action.answers_forM_append.1 entered
  have wf := (Descriptor.pristine_ofResource resource).wellFormed
  refine (perm_own resource).nodup_iff.1 (Descriptor.nodup_of_registered (o := resource.name)
    (Descriptor.holding?_registered wf far).1 ?_ near)
  intro q mem
  obtain ⟨p, _, rfl⟩ := mem_own.1 mem
  rfl

/-- Of what is filled in the last of each name stays. -/
theorem holding?_fill (builtIn : ∀ k ∈ c.configurators, k = .primaryKey)
    (h : (c.fill resource).Answers (.ofResource resource) () d) :
    ∃ chain, ancestors c.resources resource = .ok chain
      ∧ ∀ n q, Descriptor.last? n (inherited chain ++ own resource) = some q →
          d.holding? n = some (q.property, q.declaredBy) := by
  obtain ⟨chain, methods, d₁, known, _, entered, configured⟩ := answers_fill.1 h
  refine ⟨chain, known, fun n q last => ?_⟩
  have held := (Descriptor.holding?_registered
    (Descriptor.pristine_ofResource resource).wellFormed entered).2 n
  rw [last, Option.map_some, Option.some_or] at held
  refine (keeps_applyAll (I := fun d => d.holding? n = some (q.property, q.declaredBy))
    ?_).of_answers configured held
  intro k mem
  rw [builtIn k mem]
  exact Descriptor.keeps_holding_addPrimaryKey c.settings n _

/-- Every registered resource declares each of its names once. -/
def NamesOnce (resources : Roster Resource) : Prop :=
  ∀ n r, resources.get? n = some r → (r.properties.map (·.name)).Nodup

theorem namesOnce_run (settings : Settings) (requests : List Request) :
    NamesOnce ((new settings).run requests).resources := by
  refine run_keeps (I := fun c => NamesOnce c.resources) ?_ ?_
    fun request (_ : request ∈ requests) => trivial
  · intro c request _ once
    rcases after_cases c request with ⟨k, rfl⟩ | ⟨resource, d, _, filled, changed⟩ | ⟨_, changed⟩
    · exact once
    · rw [changed]
      intro n r found
      simp only [registered, Roster.get?_insert] at found
      by_cases here : n = resource.name
      · rw [if_pos here, Option.some.injEq] at found
        exact found ▸ nodup_of_fill filled
      · rw [if_neg here] at found
        exact once n r found
    · rw [changed]
      exact once
  · intro n r found
    cases found

/-- No request but that for a configurator adds one. -/
theorem configurators_after (c : Compiler) {request : Request}
    (h : ∀ k, request ≠ .configure k) : (c.after request).configurators = c.configurators := by
  rcases after_cases c request with ⟨k, same⟩ | ⟨_, _, _, _, changed⟩ | ⟨_, changed⟩
  · exact absurd same (h k)
  · rw [changed]
    rfl
  · rw [changed]
    rfl

theorem builtIn_run (settings : Settings) {requests : List Request}
    (builtIn : ∀ request ∈ requests, ∀ k, request ≠ .configure k) :
    ∀ k ∈ ((new settings).run requests).configurators, k = .primaryKey := by
  refine run_keeps (I := fun c => ∀ k ∈ c.configurators, k = .primaryKey) ?_ ?_ builtIn
  · intro c request other all
    rw [configurators_after c other]
    exact all
  · intro k mem
    unfold new at mem
    by_cases auto : settings.autoPrimaryKey
    · simpa [auto] using mem
    · simp [auto] at mem

/-- Wherever a history with the built-in configurator alone leads: of the declarations of a name along
the line of a resource that is accepted, the nearest counts just if the resource makes it itself or no
farther one is made later. -/
theorem nearest_counts_iff (settings : Settings) (requests : List Request)
    (builtIn : ∀ request ∈ requests, ∀ k, request ≠ .configure k) (c c' : Compiler)
    (reached : (new settings).run requests = c) (resource : Resource)
    (accepted : (declare resource).Answers c () c') :
    ∃ chain d, ancestors c.resources resource = .ok chain ∧ c'.descriptor? resource.name = some d ∧
      ∀ nearer k farther p, resource :: chain = nearer ++ k :: farther → p ∈ k.properties →
        (∀ r ∈ nearer, ∀ q ∈ r.properties, q.name ≠ p.name) →
        (d.holding? p.name = some (p.property, k.name) ↔ nearer = [] ∨
          ∀ a ∈ farther, ∀ q ∈ a.properties, q.name = p.name → q.created ≤ p.created) := by
  obtain ⟨d, _, filled, rfl⟩ := answers_declare.1 accepted
  have builtIn : ∀ k ∈ c.configurators, k = .primaryKey := reached ▸ builtIn_run settings builtIn
  have named := (reached ▸ coherent_run settings requests : c.Coherent).sound.named
  have once : NamesOnce c.resources := reached ▸ namesOnce_run settings requests
  obtain ⟨chain, known, held⟩ := holding?_fill builtIn filled
  obtain ⟨registered, distinct⟩ := chainFrom_eq_ok named known
  refine ⟨chain, d, known, ?_, ?_⟩
  · simp only [descriptor?, Compiler.registered, Roster.get?_insert, if_true]
  intro nearer k farther p split mem undeclared
  cases nearer with
  | nil =>
      obtain ⟨rfl, rfl⟩ := List.cons.inj split
      have own : ((Ancestry.own resource).map (·.name)).Nodup :=
        (perm_own resource).nodup_iff.2 (nodup_of_fill filled)
      refine iff_of_true (held p.name (collected (p, resource.name)) ?_) (.inl rfl)
      rw [Descriptor.last?_append, last?_own own mem, Option.some_or]
  | cons r rest =>
      obtain ⟨rfl, parts⟩ := List.cons.inj split
      have here : k ∈ chain := parts ▸ List.mem_append_right _ List.mem_cons_self
      have latest := last?_inherited_iff distinct parts mem (once k.name k (registered k here).1)
        fun r inside => undeclared r (List.mem_cons_of_mem _ inside)
      have held : ∀ q, Descriptor.last? p.name (inherited chain) = some q →
          d.holding? p.name = some (q.property, q.declaredBy) := by
        intro q last
        refine held p.name q ?_
        rw [Descriptor.last?_append, last?_own_eq_none (undeclared resource List.mem_cons_self),
          Option.none_or, last]
      have there : collected (p, k.name) ∈ inherited chain := mem_inherited.2 ⟨k, here, p, mem, rfl⟩
      obtain ⟨q, last⟩ : ∃ q, Descriptor.last? p.name (inherited chain) = some q := by
        refine Option.isSome_iff_exists.1 (List.find?_isSome.2 ⟨_, List.mem_reverse.2 there, ?_⟩)
        exact beq_self_eq_true p.name
      have name : q.name = p.name := by simpa using List.find?_some last
      rw [← latest, last, held q last, Option.some.injEq, Option.some.injEq, Prod.mk.injEq]
      constructor
      · rintro ⟨property, origin⟩
        refine .inr ?_
        cases q
        cases name
        cases property
        cases origin
        rfl
      · rintro (impossible | rfl)
        · cases impossible
        · exact ⟨rfl, rfl⟩

/-- A base with a subclass that declares one of its properties again. -/
def baseAndMiddle : List Request :=
  [.declare { name := "Base", properties := [⟨"code", 1, .field { storage := .integer }⟩] },
    .declare { name := "Middle", parent := some "Base"
               properties := [⟨"code", 2, .field { storage := .text }⟩] }]

/-- The same, and then the base is declared again. -/
def baseAgain : List Request :=
  baseAndMiddle ++
    [.declare { name := "Base", properties := [⟨"code", 3, .field { storage := .boolean }⟩] }]

/-- A subclass of the subclass. -/
def leaf : Resource := { name := "Leaf", parent := some "Middle" }

theorem nearest_counts_middle :
    (∀ request ∈ baseAndMiddle, ∀ k, request ≠ .configure k) ∧
    ∃ c' d, (declare leaf).Answers ((new {}).run baseAndMiddle) () c'
      ∧ c'.descriptor? "Leaf" = some d
      ∧ d.holding? "code" = some (.field { storage := .text }, "Middle") := by
  have builtIn : ∀ request ∈ baseAndMiddle, ∀ k, request ≠ .configure k := by
    simp [baseAndMiddle]
  obtain ⟨_, c', accepted⟩ := Action.exists_answers_of_isOk
    (show (declare leaf ((new {}).run baseAndMiddle)).result.isOk = true by cbv)
  refine ⟨builtIn, c', ?_⟩
  obtain ⟨chain, d, known, there, counts⟩ :=
    nearest_counts_iff {} baseAndMiddle builtIn _ c' rfl leaf accepted
  have line : (ancestors ((new {}).run baseAndMiddle).resources leaf).toOption.any (fun chain =>
      chain.map (fun r => (r.name, r.properties))
        == [("Middle", [⟨"code", 2, .field { storage := .text }⟩]),
          ("Base", [⟨"code", 1, .field { storage := .integer }⟩])]) = true := by cbv
  rw [known] at line
  obtain ⟨middle, rest, rfl, own, line⟩ := List.map_eq_cons_iff.1 (eq_of_beq line)
  obtain ⟨base, rfl, far⟩ := List.map_eq_singleton_iff.1 line
  obtain ⟨name, own⟩ := Prod.mk.inj own
  obtain ⟨_, far⟩ := Prod.mk.inj far
  have held := (counts [leaf] middle [base] ⟨"code", 2, .field { storage := .text }⟩ rfl
    (by simp [own]) (by simp [leaf])).2 (.inr (by simp [far]))
  exact ⟨d, accepted, there, name ▸ held⟩

/-- A base that is declared again overrules the subclass between it and the resource. -/
theorem farther_declaration_counts :
    ∃ c' chain d, (declare leaf).Answers ((new {}).run baseAgain) () c'
      ∧ ancestors ((new {}).run baseAgain).resources leaf = .ok chain
      ∧ c'.descriptor? leaf.name = some d
      ∧ ¬ ∀ nearer k farther p, leaf :: chain = nearer ++ k :: farther → p ∈ k.properties →
          (∀ r ∈ nearer, ∀ q ∈ r.properties, q.name ≠ p.name) →
          d.holding? p.name = some (p.property, k.name) := by
  obtain ⟨_, c', accepted⟩ := Action.exists_answers_of_isOk
    (show (declare leaf ((new {}).run baseAgain)).result.isOk = true by cbv)
  have line : (ancestors ((new {}).run baseAgain).resources leaf).toOption.any (fun chain =>
      chain.map (·.properties) == [[⟨"code", 2, .field { storage := .text }⟩],
        [⟨"code", 3, .field { storage := .boolean }⟩]]) = true := by cbv
  have holds : ((declare leaf ((new {}).run baseAgain)).state.descriptor? "Leaf").any (fun d =>
      d.holding? "code" == some (.field { storage := .boolean }, "Base")) = true := by cbv
  rw [accepted.2] at holds
  obtain ⟨d, there, held⟩ := (Option.any_eq_true _ _).1 holds
  have held : d.holding? "code" = some (.field { storage := .boolean }, "Base") := by
    simpa using held
  cases known : ancestors ((new {}).run baseAgain).resources leaf with
  | error e =>
      rw [known] at line
      cases line
  | ok chain =>
      refine ⟨c', chain, d, accepted, rfl, there, fun nearest => ?_⟩
      rw [known] at line
      obtain ⟨middle, rest, rfl, own, _⟩ := List.map_eq_cons_iff.1 (eq_of_beq line)
      have text := nearest [leaf] middle rest ⟨"code", 2, .field { storage := .text }⟩ rfl
        (by simp [own]) (by simp [leaf])
      rw [held, Option.some.injEq, Prod.mk.injEq] at text
      exact absurd text.1 (by decide)

end Compiler

end ResourceTables
