/-
# `ResourceTables.Proofs.Reaching` — a search meets exactly what its start leads to, each once

The two invariants of the search: nothing is met twice, and whatever a finished name leads to is
finished or waits in the queue.
-/
import ResourceTables.Reach
import Mathlib.Data.List.Nodup
import Mathlib.Logic.Relation

namespace ResourceTables

variable {known : List String} {next : String → List String}

/-- One step of the search: a known name that another leads to. -/
def Leads (known : List String) (next : String → List String) (a b : String) : Prop :=
  b ∈ next a ∧ b ∈ known

theorem nodup_eraseDups (xs : List String) : xs.eraseDups.Nodup := by
  suffices ∀ n (xs : List String), xs.length = n → xs.eraseDups.Nodup from this _ xs rfl
  intro n
  induction n using Nat.strongRecOn with
  | ind n ih =>
      intro xs len
      cases xs with
      | nil => simp
      | cons x rest =>
          rw [List.eraseDups_cons, List.nodup_cons]
          constructor
          · simp [List.mem_eraseDups]
          · refine ih _ ?_ _ rfl
            rw [← len]
            exact Nat.lt_succ_of_le (List.length_filter_le _ _)

/-- Names that are there already add nothing to the search. -/
theorem firstMet_append_of_subset {names more : List String} (sub : ∀ n ∈ more, n ∈ names)
    (known met : List String) : firstMet known met (names ++ more) = firstMet known met names := by
  unfold firstMet
  rw [List.filter_append, List.eraseDups_append]
  generalize (fun name => known.contains name && !met.contains name) = new
  have none : (more.filter new).removeAll (names.filter new) = [] := by
    refine List.filter_eq_nil_iff.2 fun n mem => ?_
    obtain ⟨inside, here⟩ := List.mem_filter.1 mem
    simp [List.mem_filter.2 ⟨sub n inside, here⟩]
  rw [none, List.eraseDups_nil, List.append_nil]

theorem nodup_append_firstMet {met : List String} (h : met.Nodup) (names : List String) :
    (met ++ firstMet known met names).Nodup := by
  refine List.nodup_append.2 ⟨h, nodup_eraseDups _, ?_⟩
  rintro n inside _ mem rfl
  exact (mem_firstMet.1 mem).2.2 inside

theorem nodup_reachFrom {done todo : List String} (h : (done ++ todo).Nodup) :
    (reachFrom known next done todo).Nodup := by
  fun_induction reachFrom known next done todo with
  | case1 => simpa using h
  | case2 done name rest ih =>
      refine ih ?_
      have more : (done ++ name :: rest ++ firstMet known (done ++ name :: rest) (next name)).Nodup :=
        nodup_append_firstMet h (next name)
      simpa using more

theorem subset_reachFrom {done todo : List String} {n : String} (h : n ∈ done ++ todo) :
    n ∈ reachFrom known next done todo := by
  fun_induction reachFrom known next done todo with
  | case1 => simpa using h
  | case2 done name rest ih =>
      refine ih ?_
      simp only [List.mem_append, List.mem_cons] at h ⊢
      tauto

/-- Whatever a finished name leads to is finished in the end, if the same holds of the names that
are finished at the start and of those in the queue. -/
theorem reachFrom_closed {done todo : List String}
    (h : ∀ a ∈ done, ∀ b, Leads known next a b → b ∈ done ++ todo) {a b : String}
    (ha : a ∈ reachFrom known next done todo) (hab : Leads known next a b) :
    b ∈ reachFrom known next done todo := by
  fun_induction reachFrom known next done todo with
  | case1 done => simpa using h a ha b hab
  | case2 done name rest ih =>
      refine ih ?_ ha
      intro c hc d hcd
      by_cases met : d ∈ done ++ name :: rest
      · simp only [List.mem_append, List.mem_cons] at met ⊢
        tauto
      · rcases List.mem_append.1 hc with hc | hc
        · exact absurd (h c hc d hcd) met
        · rw [List.mem_singleton] at hc
          subst hc
          have new : d ∈ firstMet known (done ++ c :: rest) (next c) :=
            mem_firstMet.2 ⟨hcd.1, hcd.2, met⟩
          exact List.mem_append_right _ (List.mem_append_right _ new)

theorem reachFrom_sound {start : String} {done todo : List String}
    (h : ∀ n ∈ done ++ todo, Relation.ReflTransGen (Leads known next) start n) {n : String}
    (hn : n ∈ reachFrom known next done todo) :
    Relation.ReflTransGen (Leads known next) start n := by
  fun_induction reachFrom known next done todo with
  | case1 done => exact h n (by simpa using hn)
  | case2 done name rest ih =>
      refine ih ?_ hn
      intro m hm
      simp only [List.mem_append, List.mem_cons, List.not_mem_nil, or_false] at hm
      rcases hm with (hm | rfl) | hm | hm
      · exact h m (by simp [hm])
      · exact h m (by simp)
      · exact h m (by simp [hm])
      · obtain ⟨leads, inside, _⟩ := mem_firstMet.1 hm
        exact (h name (by simp)).tail ⟨leads, inside⟩

/-- Two searchesthat meet the same new names at every step meet the same names. -/
theorem reachFrom_congr {known : List String} {next next' : String → List String}
    (same : ∀ name met, firstMet known met (next' name) = firstMet known met (next name))
    (done todo : List String) : reachFrom known next' done todo = reachFrom known next done todo := by
  fun_induction reachFrom known next done todo with
  | case1 done => rw [reachFrom]
  | case2 done name rest ih => rw [reachFrom, same, ih]

theorem nodup_reach (start : String) : (reach known next start).Nodup :=
  nodup_reachFrom (by simp)

/-- A search meets the names that its start leads to, in any number of steps. -/
theorem mem_reach {start n : String} :
    n ∈ reach known next start ↔ Relation.ReflTransGen (Leads known next) start n := by
  constructor
  · refine reachFrom_sound ?_
    intro m hm
    rw [List.nil_append, List.mem_singleton] at hm
    exact hm ▸ .refl
  · intro steps
    induction steps with
    | refl => exact subset_reachFrom (by simp)
    | tail _ last ih => exact reachFrom_closed (by simp) ih last

end ResourceTables
