/-
# `ResourceTables.Proofs.Hierarchy` — the registered resources are a forest

A resource that is declared again may get another parent, also one below it, so what keeps the lines of
parents from closing is the walk that every declaration starts with.  If it ends, the name that is
declared is not on the line above it: putting the resource there changes no line but those through that
name, and these go on along the new one.

So in every history each registered resource has a line that ends, and a walk fails only where it leads
back to the name that is declared or leaves the registered resources.
-/
import Mathlib
import ResourceTables.Proofs.Precedence
import ResourceTables.Proofs.Refusals

namespace ResourceTables

namespace Ancestry

variable {resources : Roster Resource} {resource : Resource} {chain above : List Resource}
  {parent : Option String} {n : String} {e : Error}

/-- The resource registered under `a` has the parent `b`. -/
def Subclass (resources : Roster Resource) (a b : String) : Prop :=
  ∃ r, resources.get? a = some r ∧ r.parent = some b

/-- The line of parents from a name on, nearest first: each resource is registered under its name, the
next is its parent, and the last has none. -/
inductive Line (resources : Roster Resource) : Option String → List Resource → Prop
  | root : Line resources none []
  | step {r : Resource} {rest : List Resource} : resources.get? r.name = some r →
      Line resources r.parent rest → Line resources (some r.name) (r :: rest)

/-- The line of parents of a resource leads back to its name, or to a name that is not registered. -/
def Strays (resources : Roster Resource) (resource : Resource) : Prop :=
  ∃ p n, resource.parent = some p ∧ Relation.ReflTransGen (Subclass resources) p n
    ∧ (n = resource.name ∨ resources.get? n = none)

/-- From every registered name a line goes up to its end. -/
def Forest (resources : Roster Resource) : Prop :=
  ∀ n r, resources.get? n = some r → ∃ chain, Line resources (some n) chain

namespace Line

/-- The line from a name on begins with the resource registered there. -/
theorem exists_first (h : Line resources (some n) chain) :
    ∃ r rest, r.name = n ∧ resources.get? n = some r ∧ Line resources r.parent rest
      ∧ r :: rest = chain := by
  generalize start : some n = parent at h
  cases h with
  | root => cases start
  | @step r rest here line =>
      obtain rfl := Option.some.inj start
      exact ⟨r, rest, rfl, here, line, rfl⟩

theorem unique {chain' : List Resource} (h : Line resources parent chain)
    (h' : Line resources parent chain') : chain = chain' := by
  induction h generalizing chain' with
  | root =>
      cases h'
      rfl
  | @step r rest here _ ih =>
      obtain ⟨r', rest', _, here', line', rfl⟩ := h'.exists_first
      rw [here, Option.some.injEq] at here'
      subst here'
      rw [ih line']

/-- What stands above a resource on a line is its own line. -/
theorem of_append {before after : List Resource} {k : Resource}
    (h : Line resources parent (before ++ k :: after)) :
    Line resources (some k.name) (k :: after) := by
  induction before generalizing parent with
  | nil =>
      cases h with
      | step here line => exact .step here line
  | cons first rest ih =>
      cases h with
      | step _ line => exact ih line

/-- No name stands twice on a line: what stands above its two places would be the same. -/
theorem nodup (h : Line resources parent chain) : (chain.map (·.name)).Nodup := by
  induction h with
  | root => exact List.nodup_nil
  | @step r rest here line ih =>
      refine List.nodup_cons.2 ⟨fun mem => ?_, ih⟩
      obtain ⟨k, inside, name⟩ := List.mem_map.1 mem
      obtain ⟨before, after, split⟩ := List.append_of_mem inside
      have again : Line resources (some k.name) (k :: after) := (split ▸ line).of_append
      rw [name] at again
      have same : r :: rest = k :: after := (Line.step here line).unique again
      have lengths := congrArg List.length same
      rw [split] at lengths
      simp at lengths
      omega

/-- A line that avoids a name stays a line when a resource is registered under that name. -/
theorem insert (h : Line resources parent chain) (free : resource.name ∉ chain.map (·.name)) :
    Line (resources.insert resource.name resource) parent chain := by
  induction h with
  | root => exact .root
  | @step r rest here _ ih =>
      rw [List.map_cons, List.mem_cons, not_or] at free
      refine .step ?_ (ih free.2)
      rw [Roster.get?_insert, if_neg (Ne.symm free.1)]
      exact here

/-- Any other goes up to that name, and from there along the line of the resource. -/
theorem exists_insert (h : Line resources parent chain)
    (new : Line (resources.insert resource.name resource) (some resource.name)
      (resource :: above)) :
    ∃ chain', Line (resources.insert resource.name resource) parent chain' := by
  induction h with
  | root => exact ⟨[], .root⟩
  | @step r rest here _ ih =>
      by_cases same : r.name = resource.name
      · exact ⟨resource :: above, same ▸ new⟩
      · obtain ⟨rest', line⟩ := ih
        refine ⟨r :: rest', .step ?_ line⟩
        rw [Roster.get?_insert, if_neg same]
        exact here

/-! ## Lines and walks -/

/-- A line that avoids what is met is walked to its end. -/
theorem chainFrom_eq (h : Line resources parent chain) {name : String} {seen : List String}
    (unseen : ∀ r ∈ chain, r.name ∉ seen) :
    chainFrom resources name seen parent = .ok chain := by
  induction h generalizing seen with
  | root => rw [chainFrom]
  | @step r rest here line ih =>
      have distinct : ((r :: rest).map (·.name)).Nodup := (Line.step here line).nodup
      have later : chainFrom resources name (r.name :: seen) r.parent = .ok rest := by
        refine ih fun k mem met => ?_
        rcases List.mem_cons.1 met with same | old
        · exact (List.nodup_cons.1 distinct).1 (List.mem_map.2 ⟨k, mem, same⟩)
        · exact unseen k (List.mem_cons_of_mem _ mem) old
      rw [chainFrom]
      split
      · rename_i met
        exact absurd met (unseen r List.mem_cons_self)
      · split
        · rename_i absent
          rw [here] at absent
          cases absent
        · rename_i found there
          rw [here, Option.some.injEq] at there
          subst there
          rw [later]

/-- What is walked is a line. -/
theorem of_chainFrom (named : ∀ n r, resources.get? n = some r → r.name = n) {name : String}
    {seen : List String} (h : chainFrom resources name seen parent = .ok chain) :
    Line resources parent chain := by
  fun_induction chainFrom resources name seen parent generalizing chain with
  | case1 =>
      cases h
      exact .root
  | case2 => cases h
  | case3 => cases h
  | case4 seen first new found there rest ends ih =>
      cases h
      obtain rfl := named first found there
      exact .step there (ih ends)
  | case5 => cases h

/-- Following parents keeps to the line. -/
theorem follow (h : Line resources (some n) chain) {x : String}
    (steps : Relation.ReflTransGen (Subclass resources) n x) :
    ∃ rest, Line resources (some x) rest ∧ rest <:+ chain := by
  induction steps with
  | refl => exact ⟨chain, h, List.suffix_rfl⟩
  | @tail y z _ last ih =>
      obtain ⟨_, line, inside⟩ := ih
      obtain ⟨k, rest, _, here, above, rfl⟩ := line.exists_first
      obtain ⟨r, found, up⟩ := last
      rw [here, Option.some.injEq] at found
      subst found
      exact ⟨rest, up ▸ above, (List.suffix_cons k rest).trans inside⟩

/-- Everything on the line is reached by following parents. -/
theorem reaches (h : Line resources (some n) chain) {k : Resource} (mem : k ∈ chain) :
    Relation.ReflTransGen (Subclass resources) n k.name := by
  induction chain generalizing n with
  | nil => cases mem
  | cons _ rest ih =>
      obtain ⟨r, _, name, here, above, same⟩ := h.exists_first
      obtain ⟨rfl, rfl⟩ := List.cons.inj same
      rcases List.mem_cons.1 mem with rfl | later
      · rw [name]
      · cases up : r.parent with
        | none =>
            rw [up] at above
            cases above
            cases later
        | some p =>
            rw [up] at above
            exact .head ⟨r, here, up⟩ (ih above later)

end Line

/-! ## Forests -/

namespace Forest

/-- Registering a resource whose line is walked to its end keeps the forest. -/
theorem insert (forest : Forest resources)
    (named : ∀ n r, resources.get? n = some r → r.name = n)
    (walked : ancestors resources resource = .ok above) :
    Forest (resources.insert resource.name resource) := by
  have free : resource.name ∉ above.map (·.name) := (List.nodup_cons.1 (nodup_ancestors named walked)).1
  have line : Line resources resource.parent above := .of_chainFrom named walked
  have here : (resources.insert resource.name resource).get? resource.name = some resource := by
    rw [Roster.get?_insert, if_pos rfl]
  have new := Line.step here (line.insert free)
  intro n r found
  rw [Roster.get?_insert] at found
  by_cases same : n = resource.name
  · rw [same]
    exact ⟨_, new⟩
  · rw [if_neg same] at found
    obtain ⟨chain, old⟩ := forest n r found
    exact old.exists_insert new

/-- The line above a registered resource. -/
theorem exists_above (forest : Forest resources) {r : Resource} (found : resources.get? n = some r) :
    ∃ chain, Line resources r.parent chain ∧ Line resources (some n) (r :: chain) := by
  obtain ⟨_, line⟩ := forest n r found
  obtain ⟨k, rest, _, here, above, rfl⟩ := line.exists_first
  rw [here, Option.some.injEq] at found
  subst found
  exact ⟨rest, above, line⟩

theorem parent_registered (forest : Forest resources) {r : Resource} {p : String}
    (found : resources.get? n = some r) (up : r.parent = some p) :
    (resources.get? p).isSome = true := by
  obtain ⟨chain, above, _⟩ := forest.exists_above found
  rw [up] at above
  obtain ⟨k, _, _, here, _⟩ := above.exists_first
  exact Option.isSome_iff_exists.2 ⟨k, here⟩

/-- Nothing is above itself: its line would be a part of what stands above it. -/
theorem acyclic (forest : Forest resources) (n : String) :
    ¬ Relation.TransGen (Subclass resources) n n := by
  intro loop
  obtain ⟨p, ⟨r, found, up⟩, back⟩ := Relation.TransGen.head'_iff.1 loop
  obtain ⟨chain, above, line⟩ := forest.exists_above found
  rw [up] at above
  obtain ⟨rest, again, inside⟩ := above.follow back
  have shorter := inside.length_le
  rw [← line.unique again, List.length_cons] at shorter
  omega

/-- Any resource, registered or not, can be walked up from just if its line does not stray. -/
theorem ancestors_iff (forest : Forest resources)
    (named : ∀ n r, resources.get? n = some r → r.name = n) :
    (∃ chain, ancestors resources resource = .ok chain) ↔ ¬ Strays resources resource := by
  constructor
  · rintro ⟨chain, walked⟩ ⟨p, n, up, steps, strayed⟩
    have line : Line resources resource.parent chain := .of_chainFrom named walked
    rw [up] at line
    obtain ⟨_, rest, inside⟩ := line.follow steps
    obtain ⟨k, above, name, here, _, rfl⟩ := rest.exists_first
    rcases strayed with same | absent
    · have mem : k ∈ chain := inside.subset List.mem_cons_self
      have distinct := (List.nodup_cons.1 (nodup_ancestors named walked)).1
      exact distinct (List.mem_map.2 ⟨k, mem, name.trans same⟩)
    · rw [here] at absent
      cases absent
  · intro kept
    cases up : resource.parent with
    | none =>
        rw [ancestors, up]
        exact ⟨[], Line.root.chainFrom_eq (by simp)⟩
    | some p =>
        have known : resources.get? p ≠ none := fun absent => kept ⟨p, p, up, .refl, .inr absent⟩
        obtain ⟨r, found⟩ := Option.ne_none_iff_exists'.1 known
        obtain ⟨chain, line⟩ := forest p r found
        rw [ancestors, up]
        refine ⟨chain, line.chainFrom_eq fun k mem met => ?_⟩
        exact kept ⟨p, k.name, up, line.reaches mem, .inl (List.mem_singleton.1 met)⟩

end Forest

end Ancestry

/-! ## Histories -/

/-- A configurator that never fails for the hierarchy. -/
def Configurator.TrustsHierarchy (k : Configurator) : Prop :=
  ∀ settings d about reason d', ¬ (k.configure settings).Fails d (.brokenHierarchy about reason) d'

theorem Configurator.primaryKey_trustsHierarchy : primaryKey.TrustsHierarchy :=
  fun _ _ _ _ _ => not_fails_addPrimaryKey

namespace Compiler

open Ancestry

variable {c : Compiler}

/-- A compiler has the built-in configurator and those that were asked for. -/
theorem configurators_run (settings : Settings) (requests : List Request) :
    ∀ k ∈ ((new settings).run requests).configurators,
      k = .primaryKey ∨ ∃ k', .configure k' ∈ requests ∧ k = k'.toConfigurator := by
  refine run_keeps (I := fun c => ∀ k ∈ c.configurators,
    k = .primaryKey ∨ ∃ k', .configure k' ∈ requests ∧ k = k'.toConfigurator) ?_ ?_
    fun request (asked : request ∈ requests) => asked
  · intro c request asked all k mem
    rcases after_cases c request with ⟨k', rfl⟩ | ⟨_, _, _, _, changed⟩ | ⟨_, changed⟩
    · rcases List.mem_append.1 mem with old | new
      · exact all k old
      · exact .inr ⟨k', asked, List.mem_singleton.1 new⟩
    · rw [changed] at mem
      exact all k mem
    · rw [changed] at mem
      exact all k mem
  · intro k mem
    unfold new at mem
    by_cases auto : settings.autoPrimaryKey
    · exact .inl (by simpa [auto] using mem)
    · simp [auto] at mem

/-- A request keeps the forest. -/
theorem forest_after (coherent : c.Coherent) (forest : Forest c.resources) (request : Request) :
    Forest (c.after request).resources := by
  rcases after_cases c request with ⟨_, rfl⟩ | ⟨resource, d, _, filled, changed⟩ | ⟨_, changed⟩
  · exact forest
  · obtain ⟨chain, _, _, walked, _⟩ := answers_fill.1 filled
    rw [changed]
    exact forest.insert coherent.sound.named walked
  · rw [changed]
    exact forest

theorem forest_run (settings : Settings) (requests : List Request) :
    Forest ((new settings).run requests).resources := by
  have ends : ((new settings).run requests).Coherent
      ∧ Forest ((new settings).run requests).resources := by
    refine run_keeps (I := fun c => c.Coherent ∧ Forest c.resources) ?_
      ⟨coherent_new settings, fun n r found => by cases found⟩
      fun request (_ : request ∈ requests) => trivial
    rintro c request - ⟨coherent, forest⟩
    exact ⟨coherent_after coherent request, forest_after coherent forest request⟩
  exact ends.2

/-- Wherever a history leads, the registered resources are a forest: every parent is registered, no
resource is above itself, and the line above a resource is walked to its end, parent by parent and no
name twice.  A declaration under identifiers is refused for the hierarchy, and changes nothing, just if
its line leads back to the name that is declared or to a name that is not registered; all that is
asked of added configurators is that they do not fail for the hierarchy on their own. -/
theorem hierarchy_is_forest (settings : Settings) (requests : List Request) (c : Compiler)
    (reached : (new settings).run requests = c) :
    (∀ n r p, c.resources.get? n = some r → r.parent = some p → (c.resources.get? p).isSome = true) ∧
    (∀ n, ¬ Relation.TransGen (Subclass c.resources) n n) ∧
    (∀ n r, c.resources.get? n = some r → ∃ chain, ancestors c.resources r = .ok chain
      ∧ Line c.resources r.parent chain ∧ ((r :: chain).map (·.name)).Nodup) ∧
    ∀ resource, checkNames resource = .ok () →
      (Strays c.resources resource →
        ∃ reason, (declare resource).Fails c (.brokenHierarchy resource.name reason) c) ∧
      ((∀ k, .configure k ∈ requests → k.toConfigurator.TrustsHierarchy) →
        ∀ about reason c', (declare resource).Fails c (.brokenHierarchy about reason) c' →
          Strays c.resources resource) := by
  have named := (reached ▸ coherent_run settings requests : c.Coherent).sound.named
  have forest : Forest c.resources := reached ▸ forest_run settings requests
  refine ⟨fun n r p => forest.parent_registered, forest.acyclic, ?_, ?_⟩
  · intro n r found
    obtain ⟨chain, above, line⟩ := forest.exists_above found
    have distinct := line.nodup
    refine ⟨chain, above.chainFrom_eq fun k mem met => ?_, above, distinct⟩
    exact (List.nodup_cons.1 distinct).1 (List.mem_map.2 ⟨k, mem, List.mem_singleton.1 met⟩)
  intro resource names
  constructor
  · intro strays
    cases walked : ancestors c.resources resource with
    | ok chain => exact absurd strays ((forest.ancestors_iff named).1 ⟨chain, walked⟩)
    | error e =>
        obtain ⟨reason, rfl⟩ := brokenHierarchy_of_chainFrom walked
        exact ⟨reason, (fails_declare_iff names).2 ⟨rfl, _, fails_fill_of_ancestors walked⟩⟩
  · intro trusting about reason c' refused
    by_contra kept
    obtain ⟨chain, walked⟩ := (forest.ancestors_iff named).2 kept
    rcases refused_cases names refused with broken | ⟨_, ⟨_, _, other⟩ | ⟨k, mem, d, d', failed⟩⟩
    · rw [walked] at broken
      cases broken
    · cases other
    · rw [← reached] at mem
      rcases configurators_run settings requests k mem with rfl | ⟨k', asked, rfl⟩
      · exact Configurator.primaryKey_trustsHierarchy _ _ _ _ _ failed
      · exact trusting k' asked _ _ _ _ _ failed

/-- An entry, posts below it and comments below these. -/
def pedigree : List Request :=
  [.declare { name := "Entry" }, .declare { name := "Post", parent := some "Entry" },
    .declare { name := "Comment", parent := some "Post" }]

/-- The entry is declared again, below what is below it. -/
def entryBelow : Resource := { name := "Entry", parent := some "Comment" }

theorem strays_entryBelow : Strays ((new {}).run pedigree).resources entryBelow := by
  refine ⟨"Comment", "Entry", rfl, ?_, .inl rfl⟩
  have up : Subclass ((new {}).run pedigree).resources "Comment" "Post" :=
    ⟨{ name := "Comment", parent := some "Post" }, by cbv, rfl⟩
  have upper : Subclass ((new {}).run pedigree).resources "Post" "Entry" :=
    ⟨{ name := "Post", parent := some "Entry" }, by cbv, rfl⟩
  exact .tail (.single up) upper

theorem hierarchy_is_forest_entries :
    (∃ chain, ancestors ((new {}).run pedigree).resources { name := "Comment", parent := some "Post" }
        = .ok chain
      ∧ Line ((new {}).run pedigree).resources (some "Post") chain) ∧
    (∃ reason, (declare entryBelow).Fails ((new {}).run pedigree) (.brokenHierarchy "Entry" reason)
      ((new {}).run pedigree)) ∧
    Strays ((new {}).run pedigree).resources entryBelow := by
  obtain ⟨_, _, lines, refusals⟩ := hierarchy_is_forest {} pedigree _ rfl
  obtain ⟨chain, walked, line, _⟩ :=
    lines "Comment" { name := "Comment", parent := some "Post" } (by cbv)
  obtain ⟨refused, only⟩ := refusals entryBelow (by decide)
  obtain ⟨reason, failed⟩ := refused strays_entryBelow
  exact ⟨⟨chain, walked, line⟩, ⟨reason, failed⟩, only (by simp [pedigree]) _ _ _ failed⟩

end Compiler

end ResourceTables
