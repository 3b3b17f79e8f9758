/-
# `ResourceTables.Reach` — everything that a start leads to, nearest first

The search keeps to a finite list of known names and meets each name once, so it ends.
-/
namespace ResourceTables

/-- The known names that are not met yet. -/
def unmet (known met : List String) : List String := known.filter (!met.contains ·)

/-- The names of a list that are known and are not met yet, each once. -/
def firstMet (known met names : List String) : List String :=
  (names.filter fun name => known.contains name && !met.contains name).eraseDups

theorem mem_firstMet {known met names : List String} {name : String} :
    name ∈ firstMet known met names ↔ name ∈ names ∧ name ∈ known ∧ name ∉ met := by
  simp [firstMet, List.mem_eraseDups, List.mem_filter]

theorem length_unmet_lt {known met more : List String} {name : String}
    (inside : name ∈ known) (new : name ∉ met) (sub : ∀ n ∈ met, n ∈ more)
    (mem : name ∈ more) : (unmet known more).length < (unmet known met).length := by
  have split : unmet known more = (unmet known met).filter (!more.contains ·) := by
    unfold unmet
    rw [List.filter_filter]
    apply List.filter_congr
    intro n _
    by_cases h : n ∈ more
    · simp [h]
    · have : n ∉ met := fun hm => h (sub n hm)
      simp [h, this]
  rw [split]
  refine List.length_filter_lt_length_iff_exists.2 ⟨name, ?_, by simp [mem]⟩
  simp [unmet, List.mem_filter, inside, new]

/-- The names met from `todo` on, after those in `done`: one name after another is taken from
the front of `todo`, and the names that it leads to are put at the end. -/
def reachFrom (known : List String) (next : String → List String) (done todo : List String) :
    List String :=
  match todo with
  | [] => done
  | name :: rest =>
    reachFrom known next (done ++ [name])
      (rest ++ firstMet known (done ++ name :: rest) (next name))
termination_by ((unmet known (done ++ todo)).length, todo.length)
decreasing_by
  cases found : firstMet known (done ++ name :: rest) (next name) with
  | nil => simpa using Prod.Lex.right _ (Nat.lt_succ_self _)
  | cons first others =>
    have mem : first ∈ firstMet known (done ++ name :: rest) (next name) := by simp [found]
    rw [mem_firstMet] at mem
    exact Prod.Lex.left _ _
      (length_unmet_lt mem.2.1 mem.2.2 (by simp only [List.mem_append, List.mem_cons]; grind)
        (by simp))

/-- Everything that a start leads to among known names, the start first. -/
def reach (known : List String) (next : String → List String) (start : String) :
    List String :=
  reachFrom known next [] [start]

end ResourceTables
