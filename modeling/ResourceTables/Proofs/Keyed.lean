/-
# `ResourceTables.Proofs.Keyed` — lists of things with names, after a change of the first of a name

A descriptor keeps its properties in such lists.  With distinct names the first thing of a name is
the only one, and the lists can be read as finite maps.
-/
import ResourceTables.FirstMatch
import Mathlib.Data.List.Forall2
import Mathlib.Data.List.Nodup

namespace ResourceTables

variable {α : Type} {key : α → String} {xs : List α} {k k' : String} {a x : α}

theorem find?_key_eq_none_iff : xs.find? (key · == k) = none ↔ k ∉ xs.map key := by
  simp [List.find?_eq_none]

theorem exists_find?_key (h : k ∈ xs.map key) : ∃ x, xs.find? (key · == k) = some x := by
  cases found : xs.find? (key · == k) with
  | none => exact absurd h (find?_key_eq_none_iff.1 found)
  | some x => exact ⟨x, rfl⟩

theorem key_eq_of_find? (h : xs.find? (key · == k) = some x) : key x = k := by
  simpa using List.find?_some h

theorem find?_key_of_mem (distinct : (xs.map key).Nodup) (h : x ∈ xs) :
    xs.find? (key · == key x) = some x := by
  obtain ⟨y, found⟩ := exists_find?_key (List.mem_map_of_mem (f := key) h)
  have same : y = x :=
    List.inj_on_of_nodup_map distinct (List.mem_of_find?_eq_some found) h (key_eq_of_find? found)
  rw [found, same]

/-! ## Putting a thing in the place of the first of its name -/

theorem putFirst_eq_append (new : k ∉ xs.map key) :
    putFirst (key · == k) a xs = xs ++ [a] := by
  induction xs with
  | nil => rfl
  | cons y rest ih =>
      rw [List.map_cons, List.mem_cons, not_or] at new
      simp [putFirst, Ne.symm new.1, ih new.2]

theorem map_key_putFirst (ha : key a = k) :
    (putFirst (key · == k) a xs).map key
      = if k ∈ xs.map key then xs.map key else xs.map key ++ [k] := by
  induction xs with
  | nil => simp [putFirst, ha]
  | cons y rest ih =>
      by_cases hy : key y = k
      · simp [putFirst, hy, ha]
      · simp only [putFirst, beq_iff_eq, hy, if_false, List.map_cons, ih, List.mem_cons,
          Ne.symm hy, false_or]
        by_cases mem : k ∈ rest.map key
        · rw [if_pos mem, if_pos mem]
        · rw [if_neg mem, if_neg mem, List.cons_append]

theorem mem_map_key_putFirst (ha : key a = k) :
    k' ∈ (putFirst (key · == k) a xs).map key ↔ k' = k ∨ k' ∈ xs.map key := by
  rw [map_key_putFirst ha]
  by_cases mem : k ∈ xs.map key
  · rw [if_pos mem]
    exact ⟨.inr, fun h => h.elim (fun same => same ▸ mem) id⟩
  · rw [if_neg mem, List.mem_append, List.mem_singleton, or_comm]

theorem nodup_map_key_putFirst (ha : key a = k) (distinct : (xs.map key).Nodup) :
    ((putFirst (key · == k) a xs).map key).Nodup := by
  rw [map_key_putFirst ha]
  by_cases mem : k ∈ xs.map key
  · rwa [if_pos mem]
  · rw [if_neg mem, ← List.concat_eq_append]
    exact distinct.concat mem

theorem mem_putFirst (distinct : (xs.map key).Nodup) :
    x ∈ putFirst (key · == k) a xs ↔ x = a ∨ (x ∈ xs ∧ key x ≠ k) := by
  induction xs with
  | nil => simp [putFirst]
  | cons y rest ih =>
      rw [List.map_cons, List.nodup_cons] at distinct
      by_cases hy : key y = k
      · simp only [putFirst, beq_iff_eq, hy, if_true, List.mem_cons]
        constructor
        · rintro (rfl | mem)
          · exact .inl rfl
          · refine .inr ⟨.inr mem, fun hx => distinct.1 ?_⟩
            rw [hy, ← hx]
            exact List.mem_map_of_mem mem
        · rintro (rfl | ⟨rfl | mem, hx⟩)
          · exact .inl rfl
          · exact absurd hy hx
          · exact .inr mem
      · simp only [putFirst, beq_iff_eq, hy, if_false, List.mem_cons, ih distinct.2]
        constructor
        · rintro (rfl | rfl | ⟨mem, hx⟩)
          · exact .inr ⟨.inl rfl, hy⟩
          · exact .inl rfl
          · exact .inr ⟨.inr mem, hx⟩
        · rintro (rfl | ⟨rfl | mem, hx⟩)
          · exact .inr (.inl rfl)
          · exact .inl rfl
          · exact .inr (.inr ⟨mem, hx⟩)

theorem find?_putFirst (ha : key a = k) :
    (putFirst (key · == k) a xs).find? (key · == k')
      = if k' = k then some a else xs.find? (key · == k') := by
  induction xs with
  | nil =>
      by_cases hk : k' = k
      · simp [putFirst, ha, hk]
      · simp [putFirst, ha, hk, Ne.symm hk]
  | cons y rest ih =>
      by_cases hy : key y = k
      · by_cases hk : k' = k
        · simp [putFirst, hy, ha, hk]
        · simp [putFirst, hy, ha, hk, Ne.symm hk]
      · by_cases hk : key y = k'
        · have other : k' ≠ k := fun h => hy (hk.trans h)
          simp [putFirst, hk, other]
        · simp [putFirst, hy, hk, ih]

/-- Without the things of one name, the first of any other name stays the first. -/
theorem find?_filter_key_bne :
    (xs.filter (key · != k)).find? (key · == k') = if k' = k then none else xs.find? (key · == k') := by
  rw [List.find?_filter]
  by_cases hk : k' = k
  · rw [if_pos hk, List.find?_eq_none]
    intro x _ both
    simp [hk] at both
  · rw [if_neg hk]
    congr 1
    funext x
    by_cases hx : key x = k'
    · simp [hx, hk]
    · simp [hx]

/-! ## Changing the first thing of a name -/

/-- Where one element is changed, each is one from before or the change of one. -/
theorem mem_changeFirst {p : α → Bool} {f : α → α} {y : α}
    (mem : y ∈ changeFirst p f xs) : y ∈ xs ∨ ∃ x ∈ xs, y = f x := by
  induction xs with
  | nil => cases mem
  | cons x rest ih =>
      by_cases here : p x = true
      · simp only [changeFirst, here, if_true, List.mem_cons] at mem
        rcases mem with rfl | later
        · exact .inr ⟨x, List.mem_cons_self, rfl⟩
        · exact .inl (List.mem_cons_of_mem _ later)
      · simp only [changeFirst, here, Bool.false_eq_true, if_false, List.mem_cons] at mem
        rcases mem with rfl | later
        · exact .inl List.mem_cons_self
        · rcases ih later with old | ⟨x', inside, rfl⟩
          · exact .inl (List.mem_cons_of_mem _ old)
          · exact .inr ⟨x', List.mem_cons_of_mem _ inside, rfl⟩

theorem map_changeFirst {β : Type} {g : α → β} {p : α → Bool} {f : α → α}
    (hf : ∀ x, g (f x) = g x) : (changeFirst p f xs).map g = xs.map g := by
  induction xs with
  | nil => rfl
  | cons y rest ih =>
      by_cases hy : p y
      · simp [changeFirst, hy, hf]
      · simp [changeFirst, hy, ih]

theorem changeFirst_append {ys : List α} (absent : k ∉ ys.map key) (f : α → α) :
    changeFirst (key · == k) f (xs ++ ys) = changeFirst (key · == k) f xs ++ ys := by
  induction xs with
  | nil =>
      induction ys with
      | nil => rfl
      | cons y rest ih =>
          rw [List.map_cons, List.mem_cons, not_or] at absent
          have tail := ih absent.2
          simp only [List.nil_append, changeFirst] at tail
          simp [changeFirst, Ne.symm absent.1, tail]
  | cons x rest ih =>
      by_cases hx : key x = k
      · simp [changeFirst, hx]
      · simp [changeFirst, hx, ih]

/-- The last thing of a list is changed if no other has its name. -/
theorem changeFirst_append_last (new : k ∉ xs.map key) (ha : key a = k) (f : α → α) :
    changeFirst (key · == k) f (xs ++ [a]) = xs ++ [f a] := by
  induction xs with
  | nil => simp [changeFirst, ha]
  | cons y rest ih =>
      rw [List.map_cons, List.mem_cons, not_or] at new
      simp [changeFirst, Ne.symm new.1, ih new.2]

theorem find?_changeFirst {f : α → α} (hf : ∀ x, key (f x) = key x) :
    (changeFirst (key · == k) f xs).find? (key · == k')
      = if k' = k then (xs.find? (key · == k')).map f else xs.find? (key · == k') := by
  induction xs with
  | nil => simp [changeFirst]
  | cons y rest ih =>
      by_cases hy : key y = k
      · by_cases hk : k' = k
        · simp [changeFirst, hy, hf, hk]
        · simp [changeFirst, hy, hf, hk, Ne.symm hk]
      · by_cases hk : key y = k'
        · have other : ¬ k' = k := fun h => hy (hk.trans h)
          simp [changeFirst, hk, other]
        · simp [changeFirst, hy, hk, ih]

/-! ## Lists that agree element by element -/

section Pointwise

variable {β : Type} {R : α → β → Prop} {ys : List β} {y : β}

theorem exists_forall₂ (h : ∀ x ∈ xs, ∃ y, R x y) : ∃ ys, List.Forall₂ R xs ys := by
  induction xs with
  | nil => exact ⟨[], .nil⟩
  | cons x rest ih =>
      obtain ⟨y, one⟩ := h x List.mem_cons_self
      obtain ⟨ys, others⟩ := ih fun x' mem => h x' (List.mem_cons_of_mem _ mem)
      exact ⟨y :: ys, .cons one others⟩

theorem exists_right_of_forall₂ (h : List.Forall₂ R xs ys) (mem : x ∈ xs) : ∃ y ∈ ys, R x y := by
  induction h with
  | nil => cases mem
  | cons one _ ih =>
      rcases List.mem_cons.1 mem with rfl | mem
      · exact ⟨_, List.mem_cons_self, one⟩
      · obtain ⟨y, hy, related⟩ := ih mem
        exact ⟨y, List.mem_cons_of_mem _ hy, related⟩

theorem exists_left_of_forall₂ (h : List.Forall₂ R xs ys) (mem : y ∈ ys) : ∃ x ∈ xs, R x y := by
  induction h with
  | nil => cases mem
  | cons one _ ih =>
      rcases List.mem_cons.1 mem with rfl | mem
      · exact ⟨_, List.mem_cons_self, one⟩
      · obtain ⟨x, hx, related⟩ := ih mem
        exact ⟨x, List.mem_cons_of_mem _ hx, related⟩

theorem forall₂_append_left_split {before after : List α} (h : List.Forall₂ R (before ++ after) ys) :
    ∃ first second, ys = first ++ second ∧ List.Forall₂ R before first
      ∧ List.Forall₂ R after second := by
  induction before generalizing ys with
  | nil => exact ⟨[], ys, rfl, .nil, h⟩
  | cons a rest ih =>
      cases h with
      | cons one others =>
          obtain ⟨first, second, rfl, hf, hs⟩ := ih others
          exact ⟨_ :: first, second, rfl, .cons one hf, hs⟩

theorem map_eq_map_of_forall₂ {γ : Type} {f : α → γ} {g : β → γ} (h : List.Forall₂ R xs ys)
    (hR : ∀ x y, R x y → g y = f x) : ys.map g = xs.map f := by
  induction h with
  | nil => rfl
  | cons one _ ih => rw [List.map_cons, List.map_cons, ih, hR _ _ one]

theorem forall₂_trans {S : α → α → Prop} (trans : ∀ a b c, S a b → S b c → S a c)
    {xs ys zs : List α} (h : List.Forall₂ S xs ys) (h' : List.Forall₂ S ys zs) :
    List.Forall₂ S xs zs := by
  induction h generalizing zs with
  | nil => exact h'
  | cons one _ ih =>
      cases h' with
      | cons one' others' => exact .cons (trans _ _ _ one one') (ih others')

end Pointwise

end ResourceTables
