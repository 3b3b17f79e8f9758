/-
# `ResourceTables.Proofs.Rosters` — what is found under a name after a change

Every operation on rosters has one law about `get?`, and later proofs look at rosters only through
`get?` and `names`.  `Evolves R` says that a roster turned into another one name by name, each value
into one that `R` allows.
-/
import ResourceTables.Roster
import Mathlib.Data.List.Forall2
import Mathlib.Data.List.Nodup

namespace ResourceTables.Roster

variable {α : Type} {r r' r'' : Roster α} {name other : String} {a b : α}

/-! ## Looking up -/

@[simp] theorem get?_empty : (empty : Roster α).get? name = none := rfl

theorem get?_cons (entries : List (String × α)) (name other : String) (a : α) :
    get? ⟨(name, a) :: entries⟩ other
      = if name = other then some a else get? ⟨entries⟩ other := by
  by_cases h : name = other <;> simp [get?, h]

theorem get?_append (before after : List (String × α)) (name : String) :
    get? ⟨before ++ after⟩ name = (get? ⟨before⟩ name).or (get? ⟨after⟩ name) := by
  simp only [get?, List.find?_append]
  cases List.find? (fun e => e.1 == name) before <;> simp

theorem mem_names_iff : name ∈ r.names ↔ (r.get? name).isSome := by
  rw [← contains_iff_mem_names, contains_eq_isSome_get?]

theorem exists_get?_of_mem (h : name ∈ r.names) : ∃ a, r.get? name = some a :=
  Option.isSome_iff_exists.1 (mem_names_iff.1 h)

theorem mem_names_of_get? (h : r.get? name = some a) : name ∈ r.names := by
  rw [mem_names_iff, h]; rfl

theorem contains_eq_false_iff : r.contains name = false ↔ r.get? name = none := by
  rw [contains_eq_isSome_get?]
  cases r.get? name <;> simp

theorem mem_entries_of_get? (h : r.get? name = some a) : (name, a) ∈ r.entries := by
  obtain ⟨entry, found, rfl⟩ := Option.map_eq_some_iff.1 h
  have key : entry.1 = name := by simpa using List.find?_some found
  exact key ▸ List.mem_of_find?_eq_some found

/-- Under distinct names every entry is the one that is found. -/
theorem get?_of_mem_entries (distinct : r.names.Nodup) (h : (name, a) ∈ r.entries) :
    r.get? name = some a := by
  obtain ⟨b, found⟩ := exists_get?_of_mem (List.mem_map_of_mem (f := Prod.fst) h)
  have same : (name, b) = (name, a) :=
    List.inj_on_of_nodup_map distinct (mem_entries_of_get? found) h rfl
  rw [found, (Prod.mk.inj same).2]

/-! ## After a change -/

theorem get?_modify (r : Roster α) (name other : String) (f : α → α) :
    (r.modify name f).get? other
      = if other = name then (r.get? other).map f else r.get? other := by
  obtain ⟨entries⟩ := r
  induction entries with
  | nil => simp [modify, get?]
  | cons entry rest ih =>
      obtain ⟨n, a⟩ := entry
      simp only [modify, List.map_cons, beq_iff_eq] at ih ⊢
      by_cases hn : n = name
      · subst hn
        by_cases ho : other = n
        · subst ho
          simp [get?_cons]
        · simp only [if_true, get?_cons, ih, if_neg ho, if_neg (Ne.symm ho)]
      · simp only [hn, if_false, get?_cons, ih]
        by_cases ho : n = other
        · subst ho
          simp [hn]
        · simp [ho]

theorem get?_modify_self (r : Roster α) (name : String) (f : α → α) :
    (r.modify name f).get? name = (r.get? name).map f := by
  rw [get?_modify, if_pos rfl]

theorem get?_modify_other (h : other ≠ name) (f : α → α) :
    (r.modify name f).get? other = r.get? other := by
  rw [get?_modify, if_neg h]

theorem modify_modify (r : Roster α) (name : String) (f g : α → α) :
    (r.modify name f).modify name g = r.modify name (g ∘ f) := by
  obtain ⟨entries⟩ := r
  simp only [modify, List.map_map, mk.injEq]
  refine List.map_congr_left fun e _ => ?_
  by_cases h : e.1 = name <;> simp [h]

/-- Putting what is there already changes nothing. -/
theorem modify_of_get? (distinct : r.names.Nodup) (found : r.get? name = some a) {f : α → α}
    (same : f a = a) : r.modify name f = r := by
  obtain ⟨entries⟩ := r
  simp only [modify, mk.injEq]
  conv => rhs; rw [← List.map_id entries]
  refine List.map_congr_left fun e mem => ?_
  by_cases h : e.1 = name
  · have here : get? ⟨entries⟩ e.1 = some e.2 := get?_of_mem_entries distinct mem
    rw [h, found, Option.some.injEq] at here
    simp [h, ← here, same, Prod.ext_iff]
  · simp [h]

theorem get?_insert (r : Roster α) (name other : String) (a : α) :
    (r.insert name a).get? other = if other = name then some a else r.get? other := by
  unfold insert
  by_cases h : r.contains name
  · rw [if_pos h, get?_modify]
    by_cases ho : other = name
    · subst ho
      rw [contains_eq_isSome_get?, Option.isSome_iff_exists] at h
      obtain ⟨b, hb⟩ := h
      simp [hb]
    · rw [if_neg ho, if_neg ho]
  · have none : r.get? name = none := contains_eq_false_iff.1 (Bool.eq_false_iff.2 h)
    rw [if_neg h, get?_append]
    by_cases ho : other = name
    · subst ho
      simp [none, get?_cons]
    · simp [get?, Ne.symm ho, ho]

theorem get?_insertNew (r : Roster α) (name other : String) (a : α) :
    (r.insertNew name a).get? other
      = (r.get? other).or (if other = name then some a else none) := by
  unfold insertNew
  by_cases h : r.contains name
  · rw [if_pos h]
    by_cases ho : other = name
    · subst ho
      rw [contains_eq_isSome_get?, Option.isSome_iff_exists] at h
      obtain ⟨b, hb⟩ := h
      simp [hb]
    · simp [ho]
  · rw [if_neg h, get?_append]
    by_cases ho : other = name
    · subst ho
      simp [get?_cons]
    · simp [get?, ho, Ne.symm ho]

theorem insertNew_eq_append (h : r.get? name = none) (a : α) :
    (r.insertNew name a).entries = r.entries ++ [(name, a)] := by
  have absent : r.contains name = false := contains_eq_false_iff.2 h
  simp [insertNew, absent]

theorem nodup_names_insert (distinct : r.names.Nodup) (name : String) (a : α) :
    (r.insert name a).names.Nodup := by
  rw [names_insert]
  by_cases h : name ∈ r.names
  · rwa [if_pos h]
  · rw [if_neg h, ← List.concat_eq_append]
    exact distinct.concat h

theorem nodup_names_insertNew (distinct : r.names.Nodup) (name : String) (a : α) :
    (r.insertNew name a).names.Nodup := by
  rw [names_insertNew, ← names_insert r name a]
  exact nodup_names_insert distinct name a

/-! ## Changing every value -/

/-- The roster with every value changed, under the same names. -/
def mapValues {β : Type} (f : String → α → β) (r : Roster α) : Roster β :=
  ⟨r.entries.map fun e => (e.1, f e.1 e.2)⟩

section MapValues

variable {β : Type} {f g : String → α → β}

@[simp] theorem names_mapValues (f : String → α → β) (r : Roster α) :
    (r.mapValues f).names = r.names := by
  simp [mapValues, names]

theorem get?_mapValues (f : String → α → β) (r : Roster α) (name : String) :
    (r.mapValues f).get? name = (r.get? name).map (f name) := by
  obtain ⟨entries⟩ := r
  induction entries with
  | nil => rfl
  | cons e rest ih =>
      obtain ⟨n, a⟩ := e
      simp only [mapValues, List.map_cons] at ih ⊢
      rw [get?_cons, get?_cons, ih]
      by_cases h : n = name
      · subst h
        rw [if_pos rfl, if_pos rfl, Option.map_some]
      · rw [if_neg h, if_neg h]

theorem mapValues_congr (h : ∀ n a, r.get? n = some a → f n a = g n a) (distinct : r.names.Nodup) :
    r.mapValues f = r.mapValues g := by
  simp only [mapValues, mk.injEq]
  refine List.map_congr_left fun e mem => ?_
  rw [h e.1 e.2 (get?_of_mem_entries distinct mem)]

theorem mapValues_eq_self {f : String → α → α} (h : ∀ n a, r.get? n = some a → f n a = a)
    (distinct : r.names.Nodup) : r.mapValues f = r := by
  have same : r.mapValues f = r.mapValues fun _ a => a := mapValues_congr h distinct
  rw [same]
  simp [mapValues]

/-- A change of one value after a change of all is a change of all. -/
theorem modify_mapValues (f : String → α → β) (r : Roster α) (name : String) (h : β → β) :
    (r.mapValues f).modify name h
      = r.mapValues fun n a => if n = name then h (f n a) else f n a := by
  simp only [mapValues, modify, List.map_map, mk.injEq]
  refine List.map_congr_left fun e _ => ?_
  by_cases same : e.1 = name <;> simp [same]

end MapValues

/-! ## Evolving name by name -/

/-- The names stay where they are, and each value becomes one that `R` allows under its name. -/
def Evolves (R : String → α → α → Prop) (r r' : Roster α) : Prop :=
  List.Forall₂ (fun e e' : String × α => e.1 = e'.1 ∧ R e.1 e.2 e'.2) r.entries r'.entries

section Evolving

variable {R S T : String → α → α → Prop}

theorem Evolves.refl (hR : ∀ n a, R n a a) (r : Roster α) : Evolves R r r :=
  List.forall₂_same.2 fun _ _ => ⟨rfl, hR _ _⟩

theorem Evolves.trans (hR : ∀ n a b c, R n a b → S n b c → T n a c) (h : Evolves R r r')
    (h' : Evolves S r' r'') : Evolves T r r'' := by
  obtain ⟨entries⟩ := r
  obtain ⟨entries'⟩ := r'
  obtain ⟨entries''⟩ := r''
  simp only [Evolves] at h h' ⊢
  induction h generalizing entries'' with
  | nil =>
      cases h'
      exact .nil
  | cons one _ ih =>
      cases h' with
      | cons one' others' =>
          exact .cons ⟨one.1.trans one'.1, hR _ _ _ _ one.2 (one.1 ▸ one'.2)⟩ (ih _ others')

theorem Evolves.imp (hRS : ∀ n a b, R n a b → S n a b) (h : Evolves R r r') : Evolves S r r' :=
  List.Forall₂.imp (fun _ _ one => ⟨one.1, hRS _ _ _ one.2⟩) h

/-- A roster whose entries may only become what they are is as it was. -/
theorem Evolves.eq (same : ∀ n a a', (n, a) ∈ r.entries → R n a a' → a = a') (h : Evolves R r r') :
    r = r' := by
  obtain ⟨entries⟩ := r
  obtain ⟨entries'⟩ := r'
  simp only [Evolves] at h
  congr
  induction h with
  | nil => rfl
  | @cons e e' _ _ one _ ih =>
      have here := same e.1 e.2 e'.2 List.mem_cons_self one.2
      rw [ih fun n a a' mem => same n a a' (List.mem_cons_of_mem _ mem), Prod.ext one.1 here]

theorem Evolves.names_eq (h : Evolves R r r') : r'.names = r.names := by
  obtain ⟨entries⟩ := r
  obtain ⟨entries'⟩ := r'
  simp only [Evolves, names] at h ⊢
  induction h with
  | nil => rfl
  | cons one _ ih => simp only [List.map_cons, ih, one.1]

theorem Evolves.get? (h : Evolves R r r') (name : String) :
    (r.get? name = none ∧ r'.get? name = none) ∨
      ∃ a a', r.get? name = some a ∧ r'.get? name = some a' ∧ R name a a' := by
  obtain ⟨entries⟩ := r
  obtain ⟨entries'⟩ := r'
  simp only [Evolves] at h
  induction h with
  | nil => exact .inl ⟨rfl, rfl⟩
  | @cons e e' _ _ one _ ih =>
      obtain ⟨n, a⟩ := e
      obtain ⟨n', a'⟩ := e'
      obtain ⟨rfl, allowed⟩ := one
      rw [get?_cons, get?_cons]
      by_cases hn : n = name
      · rw [if_pos hn, if_pos hn]
        exact .inr ⟨a, a', rfl, rfl, hn ▸ allowed⟩
      · rw [if_neg hn, if_neg hn]
        exact ih

theorem Evolves.get?_forward (h : Evolves R r r') (found : r.get? name = some a) :
    ∃ a', r'.get? name = some a' ∧ R name a a' := by
  rcases h.get? name with ⟨none, _⟩ | ⟨b, b', found', found'', allowed⟩
  · rw [none] at found; cases found
  · rw [found'] at found
    cases found
    exact ⟨b', found'', allowed⟩

theorem Evolves.get?_backward (h : Evolves R r r') (found : r'.get? name = some a) :
    ∃ b, r.get? name = some b ∧ R name b a := by
  rcases h.get? name with ⟨_, none⟩ | ⟨b, b', found', found'', allowed⟩
  · rw [none] at found; cases found
  · rw [found''] at found
    cases found
    exact ⟨b, found', allowed⟩

/-- A change of the value under one name evolves the roster if it is allowed there. -/
theorem evolves_modify (hR : ∀ n a, n ≠ name → R n a a) {f : α → α}
    (h : ∀ a, (name, a) ∈ r.entries → R name a (f a)) : Evolves R r (r.modify name f) := by
  simp only [Evolves, modify, List.forall₂_map_right_iff]
  refine List.forall₂_same.2 ?_
  rintro ⟨n, a⟩ mem
  by_cases hn : n = name
  · subst hn
    simpa using h a mem
  · simpa [hn] using hR n a hn

end Evolving

end ResourceTables.Roster
