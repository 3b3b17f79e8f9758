/-
# `ResourceTables.Roster` — values under names, in the order in which the names came

Registered resources, descriptors, drafts and generated models are all kept this way.  A name
that is entered again keeps its place.
-/
namespace ResourceTables

/-- Named values in the order in which their names were first entered. -/
structure Roster (α : Type) where
  entries : List (String × α)

namespace Roster

variable {α : Type}

/-- The roster without entries. -/
def empty : Roster α := ⟨[]⟩

/-- The names, in order. -/
def names (r : Roster α) : List String := r.entries.map (·.1)

/-- The values, in the order of their names. -/
def values (r : Roster α) : List α := r.entries.map (·.2)

/-- The value under a name. -/
def get? (r : Roster α) (name : String) : Option α :=
  (r.entries.find? (·.1 == name)).map (·.2)

/-- Whether there is a value under a name. -/
def contains (r : Roster α) (name : String) : Bool := r.entries.any (·.1 == name)

/-- The number of entries. -/
def size (r : Roster α) : Nat := r.entries.length

/-- Applies `f` to the value under a name, if there is one. -/
def modify (r : Roster α) (name : String) (f : α → α) : Roster α :=
  ⟨r.entries.map fun (n, a) => if n == name then (n, f a) else (n, a)⟩

/-- Puts a value under a name: in the place of the one held there, else at the end. -/
def insert (r : Roster α) (name : String) (a : α) : Roster α :=
  if r.contains name then r.modify name fun _ => a else ⟨r.entries ++ [(name, a)]⟩

/-- Puts a value under a name that holds none; a value already there stays. -/
def insertNew (r : Roster α) (name : String) (a : α) : Roster α :=
  if r.contains name then r else ⟨r.entries ++ [(name, a)]⟩

/-! ## Names -/

@[simp] theorem names_empty : (empty : Roster α).names = [] := rfl

theorem contains_iff_mem_names {r : Roster α} {name : String} :
    r.contains name = true ↔ name ∈ r.names := by
  simp only [contains, names, List.any_eq_true, beq_iff_eq, List.mem_map]

@[simp] theorem names_modify (r : Roster α) (name : String) (f : α → α) :
    (r.modify name f).names = r.names := by
  simp only [modify, names, List.map_map]
  apply List.map_congr_left
  intro entry _
  simp only [Function.comp]
  split <;> rfl

theorem names_insert (r : Roster α) (name : String) (a : α) :
    (r.insert name a).names = if name ∈ r.names then r.names else r.names ++ [name] := by
  by_cases h : name ∈ r.names
  · simp [insert, contains_iff_mem_names.2 h, h]
  · have : r.contains name = false := by
      simpa [← contains_iff_mem_names] using h
    simp only [insert, this, h, if_false, Bool.false_eq_true]
    simp [names]

theorem names_insertNew (r : Roster α) (name : String) (a : α) :
    (r.insertNew name a).names = if name ∈ r.names then r.names else r.names ++ [name] := by
  by_cases h : name ∈ r.names
  · simp [insertNew, contains_iff_mem_names.2 h, h]
  · have : r.contains name = false := by
      simpa [← contains_iff_mem_names] using h
    simp only [insertNew, this, h, if_false, Bool.false_eq_true]
    simp [names]

theorem contains_eq_isSome_get? (r : Roster α) (name : String) :
    r.contains name = (r.get? name).isSome := by
  rw [Bool.eq_iff_iff]
  simp only [contains, get?, Option.isSome_map, List.find?_isSome, List.any_eq_true]

theorem get?_eq_none_iff {r : Roster α} {name : String} :
    r.get? name = none ↔ name ∉ r.names := by
  rw [← contains_iff_mem_names, contains_eq_isSome_get?]
  cases r.get? name <;> simp

end Roster

end ResourceTables
