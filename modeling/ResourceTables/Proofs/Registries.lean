/-
# `ResourceTables.Proofs.Registries` — a map and an order behave as one roster

Registered resources and generated models may as well be kept in two parts: a map from names to values,
and a list of the names in the order in which they came.  Nothing about the two parts says that they fit
together; that they do is kept by each change, as is what the registry is for: all that it answers and
lists is what a roster with the same changes answers and lists.
-/
import Mathlib
import ResourceTables.Proofs.Rosters

namespace ResourceTables

/-- Values under names in a map, and the names in the order in which they came. -/
structure Registry (α : Type) where
  map : Std.HashMap String α
  order : List String

namespace Registry

variable {α : Type}

/-- The registry without entries. -/
def empty : Registry α := ⟨∅, []⟩

/-- The value under a name. -/
def get? (g : Registry α) (name : String) : Option α := g.map[name]?

/-- Whether there is a value under a name. -/
def contains (g : Registry α) (name : String) : Bool := g.map.contains name

/-- The names, in order. -/
def names (g : Registry α) : List String := g.order

/-- The values, in the order of their names. -/
def values (g : Registry α) : List α := g.order.filterMap fun name => g.map[name]?

/-- The number of entries. -/
def size (g : Registry α) : Nat := g.map.size

/-- Puts a value under a name and answers with the one that it replaces.  A name that is new comes
last. -/
def register (g : Registry α) (name : String) (a : α) : Option α × Registry α :=
  let previous := g.map[name]?
  (previous,
    { map := g.map.insert name a
      order := if previous.isNone then g.order ++ [name] else g.order })

/-- Puts a value under a name that has none, and answers with the one that the name has then. -/
def insert (g : Registry α) (name : String) (a : α) : α × Registry α :=
  match g.map[name]? with
  | some existing => (existing, g)
  | none => (a, { map := g.map.insert name a, order := g.order ++ [name] })

/-! ## The roster that a registry stands for -/

/-- The order has the names of the roster, each once, and the map has its values. -/
structure Represents (g : Registry α) (r : Roster α) : Prop where
  distinct : r.names.Nodup
  order_eq : g.order = r.names
  map_eq : ∀ name, g.map[name]? = r.get? name

theorem represents_empty : (empty : Registry α).Represents .empty where
  distinct := List.nodup_nil
  order_eq := rfl
  map_eq := fun _ => Std.HashMap.getElem?_empty

namespace Represents

variable {g : Registry α} {r : Roster α} (h : g.Represents r)

include h

theorem names_eq : g.names = r.names := h.order_eq

theorem get?_eq (name : String) : g.get? name = r.get? name := h.map_eq name

theorem contains_eq (name : String) : g.contains name = r.contains name := by
  rw [contains, Std.HashMap.contains_eq_isSome_getElem?, h.map_eq, Roster.contains_eq_isSome_get?]

/-- The order lists exactly the names that the map has. -/
theorem mem_names_iff (name : String) : name ∈ g.names ↔ g.contains name = true := by
  rw [h.contains_eq, Roster.contains_iff_mem_names, h.names_eq]

theorem values_eq : g.values = r.values := by
  rw [values, h.order_eq, Roster.names, List.filterMap_map, Roster.values, ← List.filterMap_eq_map]
  refine List.filterMap_congr fun entry mem => ?_
  rw [Function.comp_apply, h.map_eq, Roster.get?_of_mem_entries h.distinct mem]
  rfl

theorem size_eq : g.size = r.size := by
  have keys : g.map.keys.Perm r.names := by
    refine (List.perm_ext_iff_of_nodup Std.HashMap.nodup_keys h.distinct).2 fun name => ?_
    rw [Std.HashMap.mem_keys, ← Std.HashMap.contains_iff_mem, ← h.names_eq]
    exact (h.mem_names_iff name).symm
  rw [size, ← Std.HashMap.length_keys, keys.length_eq, Roster.names, List.length_map, Roster.size]

/-- Registering answers with what was there, and leaves what inserting leaves of the roster. -/
theorem register (name : String) (a : α) :
    (g.register name a).1 = r.get? name ∧ (g.register name a).2.Represents (r.insert name a) := by
  refine ⟨h.map_eq name, Roster.nodup_names_insert h.distinct name a, ?_, fun other => ?_⟩
  · change (if (g.map[name]?).isNone then _ else _) = _
    rw [Roster.names_insert, h.map_eq, h.order_eq]
    simp only [Option.isNone_iff_eq_none, Roster.get?_eq_none_iff, ite_not]
  · change (g.map.insert name a)[other]? = _
    rw [Std.HashMap.getElem?_insert, h.map_eq, Roster.get?_insert]
    simp only [beq_iff_eq, eq_comm (a := name)]

/-- So does inserting, for which a value that is there already stays and is the answer. -/
theorem insert (name : String) (a : α) :
    some (g.insert name a).1 = (r.insertNew name a).get? name
      ∧ (g.insert name a).2.Represents (r.insertNew name a) := by
  rw [Roster.get?_insertNew, if_pos rfl, Registry.insert]
  have look := h.map_eq name
  cases known : g.map[name]? with
  | some existing =>
      rw [known] at look
      have same : r.insertNew name a = r := by
        rw [Roster.insertNew, Roster.contains_eq_isSome_get?, ← look]
        rfl
      rw [← look, same]
      exact ⟨rfl, h⟩
  | none =>
      rw [known] at look
      refine ⟨by rw [← look]; rfl, Roster.nodup_names_insertNew h.distinct name a, ?_, fun other => ?_⟩
      · rw [Roster.names_insertNew, if_neg (Roster.get?_eq_none_iff.1 look.symm), h.order_eq]
      · rw [Std.HashMap.getElem?_insert, h.map_eq, Roster.get?_insertNew]
        by_cases here : name = other
        · subst here
          simp [← look]
        · simp [here, Ne.symm here]

end Represents

/-! ## Whole histories of a registry -/

/-- A change of a registry. -/
inductive Change (α : Type) where
  /-- The value takes the place of the one under the name. -/
  | register (name : String) (a : α)
  /-- The value stays out if there is one under the name. -/
  | insert (name : String) (a : α)

/-- The registry after a change. -/
def after (g : Registry α) : Change α → Registry α
  | .register name a => (g.register name a).2
  | .insert name a => (g.insert name a).2

/-- The roster after the same change. -/
def Change.on (r : Roster α) : Change α → Roster α
  | .register name a => r.insert name a
  | .insert name a => r.insertNew name a

theorem Represents.after {g : Registry α} {r : Roster α} (h : g.Represents r) (change : Change α) :
    (g.after change).Represents (change.on r) := by
  cases change with
  | register name a => exact (h.register name a).2
  | insert name a => exact (h.insert name a).2

/-- After any changes a registry stands for the roster with the same changes. -/
theorem Represents.run {g : Registry α} {r : Roster α} (h : g.Represents r) (changes : List (Change α)) :
    (changes.foldl Registry.after g).Represents (changes.foldl Change.on r) := by
  induction changes generalizing g r with
  | nil => exact h
  | cons change later ih => exact ih (h.after change)

/-- Inserting entries of new names, one after another, adds them at the end. -/
theorem foldl_insert (before entries : List (String × α))
    (distinct : ((before ++ entries).map (·.1)).Nodup) :
    (entries.map fun e => Change.insert e.1 e.2).foldl Change.on ⟨before⟩ = ⟨before ++ entries⟩ := by
  induction entries generalizing before with
  | nil => rw [List.append_nil]; rfl
  | cons e rest ih =>
      rw [List.append_cons] at distinct ⊢
      have new : e.1 ∉ Roster.names ⟨before⟩ := by
        rw [List.map_append, List.map_append, List.nodup_append] at distinct
        exact fun old => (List.nodup_append.1 distinct.1).2.2 _ old _ List.mem_cons_self rfl
      have one : Change.on ⟨before⟩ (.insert e.1 e.2) = ⟨before ++ [e]⟩ :=
        congrArg Roster.mk (Roster.insertNew_eq_append (Roster.get?_eq_none_iff.2 new) e.2)
      rw [List.map_cons, List.foldl_cons, one, ih _ distinct]

end Registry

end ResourceTables
