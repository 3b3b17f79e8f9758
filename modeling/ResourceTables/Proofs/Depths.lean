/-
# `ResourceTables.Proofs.Depths` — a file is declared level by level

A resource without a parent is at depth zero, any other is one deeper than its parent, and what hangs on
a cycle of parents, on it or below it, is at no depth at all.  Round `k` places what is at depth `k`: the
names that are placed before it are those of the depths below.  So what comes out is sorted by depth, a
round keeps the order of the file, and what is stuck is what has no depth.

Rounds do this wherever a rank counts them.  That the rank is the depth of a definition is all there is
to show about files.
-/
import ResourceTables.Proofs.Files

namespace ResourceTables

/-! ## Rounds that a rank counts -/

section Ranks

variable {α : Type} {name : α → String} {isReady : List String → α → Bool} {rank : α → ℕ∞}
  {all ordered : List α} {placed : List String} {k : ℕ}

/-- The placed names are those of the things below a rank. -/
def Reached (name : α → String) (rank : α → ℕ∞) (all : List α) (placed : List String) (k : ℕ) : Prop :=
  ∀ x ∈ all, name x ∈ placed ↔ rank x < k

/-- With the things below a rank placed, those up to it are ready. -/
def Counts (name : α → String) (isReady : List String → α → Bool) (rank : α → ℕ∞) (all : List α) :
    Prop :=
  ∀ k placed, Reached name rank all placed k → ∀ x ∈ all, isReady placed x = true ↔ rank x ≤ k

/-- What comes out from round `k` on: sorted by rank, and within one rank in the given order. -/
structure InLevels (rank : α → ℕ∞) (all : List α) (k : ℕ) (ordered : List α) : Prop where
  reached : ∀ x ∈ ordered, k ≤ rank x
  sorted : ordered.Pairwise (rank · ≤ rank ·)
  stable : ∀ j, k ≤ j → ordered.filter (rank · = j) = all.filter (rank · = j)

theorem Counts.readyIn_eq (counts : Counts name isReady rank all)
    (reached : Reached name rank all placed k) :
    readyIn isReady placed (all.filter (k ≤ rank ·)) = all.filter (rank · = k) := by
  rw [readyIn, List.filter_filter]
  refine List.filter_congr fun x mem => ?_
  rw [Bool.eq_iff_iff, Bool.and_eq_true, counts k placed reached x mem, decide_eq_true_eq,
    decide_eq_true_eq, ← le_antisymm_iff]

theorem Counts.waitingIn_eq (counts : Counts name isReady rank all)
    (reached : Reached name rank all placed k) :
    waitingIn isReady placed (all.filter (k ≤ rank ·)) = all.filter ((k + 1 : ℕ) ≤ rank ·) := by
  rw [waitingIn, List.filter_filter]
  refine List.filter_congr fun x mem => ?_
  rw [Bool.eq_iff_iff, Bool.and_eq_true, Bool.not_eq_true', ← Bool.not_eq_true,
    counts k placed reached x mem, decide_eq_true_eq, decide_eq_true_eq, not_le, Nat.cast_add_one,
    Order.add_one_le_iff_of_not_isMax (by simp)]
  exact ⟨And.left, fun above => ⟨above, above.le⟩⟩

/-- A round reaches the next rank. -/
theorem Reached.next (distinct : (all.map name).Nodup) (reached : Reached name rank all placed k) :
    Reached name rank all (placed ++ (all.filter (rank · = k)).map name) (k + 1) := by
  intro x mem
  have here : name x ∈ (all.filter (rank · = k)).map name ↔ rank x = k := by
    constructor
    · intro named
      obtain ⟨y, level, same⟩ := List.mem_map.1 named
      obtain ⟨known, ranked⟩ := List.mem_filter.1 level
      rw [← List.inj_on_of_nodup_map distinct known mem same]
      exact of_decide_eq_true ranked
    · exact fun ranked => List.mem_map_of_mem (List.mem_filter.2 ⟨mem, decide_eq_true ranked⟩)
  rw [List.mem_append, reached x mem, here, ← le_iff_lt_or_eq, Nat.cast_add_one,
    Order.lt_add_one_iff_of_not_isMax (by simp)]

/-- What is placed reaches every rank from one on that nothing has: the rounds for them would place
nothing. -/
theorem Counts.reached_of_empty (counts : Counts name isReady rank all)
    (reached : Reached name rank all placed k) (empty : ∀ x ∈ all, rank x ≠ k) (j : ℕ) :
    Reached name rank all placed (k + j) ∧ ∀ x ∈ all, rank x ≠ (k + j : ℕ) := by
  induction j with
  | zero => exact ⟨reached, empty⟩
  | succ j ih =>
      obtain ⟨reached, empty⟩ := ih
      have next : Reached name rank all placed (k + (j + 1)) := by
        intro x mem
        rw [reached x mem, ← add_assoc, Nat.cast_add_one, Order.lt_add_one_iff_of_not_isMax (by simp)]
        exact ⟨le_of_lt, fun upTo => upTo.lt_of_ne (empty x mem)⟩
      refine ⟨next, fun x mem ranked => ?_⟩
      -- What had the next rank would be ready in its round, hence in this one, where the names are the same.
      have early := (counts _ _ reached x mem).1 ((counts _ _ next x mem).2 ranked.le)
      rw [ranked, Nat.cast_le] at early
      omega

theorem Counts.eq_top_of_empty (counts : Counts name isReady rank all)
    (reached : Reached name rank all placed k) (empty : ∀ x ∈ all, rank x ≠ k) {x : α} (mem : x ∈ all)
    (above : k ≤ rank x) : rank x = ⊤ := by
  by_contra finite
  obtain ⟨r, ranked⟩ := ENat.ne_top_iff_exists.1 finite
  rw [← ranked, Nat.cast_le] at above
  obtain ⟨j, rfl⟩ := Nat.exists_eq_add_of_le above
  exact (counts.reached_of_empty reached empty j).2 x mem ranked.symm

/-- The things of one rank come before those from the next one on. -/
theorem InLevels.cons (later : InLevels rank all (k + 1) ordered) :
    InLevels rank all k (all.filter (rank · = k) ++ ordered) := by
  have level : ∀ x ∈ all.filter (rank · = k), rank x = k := fun x mem =>
    of_decide_eq_true (List.mem_filter.1 mem).2
  have above : ∀ x ∈ ordered, k < rank x := fun x mem =>
    lt_of_lt_of_le (Nat.cast_lt.2 k.lt_succ_self) (later.reached x mem)
  refine ⟨List.forall_mem_append.2 ⟨fun x mem => (level x mem).ge, fun x mem => (above x mem).le⟩,
    List.pairwise_append.2 ⟨?_, later.sorted, ?_⟩, fun j from_ => ?_⟩
  · exact List.pairwise_of_forall_mem_list fun x mem y mem' => by rw [level x mem, level y mem']
  · exact fun x mem y mem' => (level x mem).trans_le (above y mem').le
  · rw [List.filter_append]
    rcases from_.eq_or_lt with rfl | past
    · have none : ordered.filter (rank · = k) = [] := List.filter_eq_nil_iff.2 fun x mem ranked =>
        (above x mem).ne' (of_decide_eq_true ranked)
      rw [none, List.append_nil, List.filter_filter]
      simp
    · have none : (all.filter (rank · = k)).filter (rank · = j) = [] :=
        List.filter_eq_nil_iff.2 fun x mem ranked =>
          past.ne (Nat.cast_inj.1 ((level x mem).symm.trans (of_decide_eq_true ranked)))
      rw [none, List.nil_append, later.stable j past]

/-- Where a rank counts the rounds, what has a rank comes out level by level, and what has none is
stuck. -/
theorem inRounds_of_counts (distinct : (all.map name).Nodup) (counts : Counts name isReady rank all)
    (reached : Reached name rank all placed k) :
    ∃ ordered, InLevels rank all k ordered ∧
      inRounds name isReady placed (all.filter (k ≤ rank ·)) = (ordered, all.filter (rank · = ⊤)) := by
  induction len : (all.filter (k ≤ rank ·)).length using Nat.strongRecOn generalizing placed k with
  | ind n ih =>
      cases ready : all.filter (rank · = k) with
      | nil =>
          have empty : ∀ x ∈ all, rank x ≠ k := fun x mem ranked =>
            List.filter_eq_nil_iff.1 ready x mem (decide_eq_true ranked)
          refine ⟨[], ⟨by simp, .nil, fun j from_ => ?_⟩, ?_⟩
          · obtain ⟨i, rfl⟩ := Nat.exists_eq_add_of_le from_
            refine (List.filter_eq_nil_iff.2 fun x mem ranked => ?_).symm
            exact (counts.reached_of_empty reached empty i).2 x mem (of_decide_eq_true ranked)
          · rw [inRounds_of_none ((counts.readyIn_eq reached).trans ready)]
            refine congrArg (Prod.mk []) (List.filter_congr fun x mem => ?_)
            rw [decide_eq_decide]
            exact ⟨counts.eq_top_of_empty reached empty mem, fun top => top ▸ le_top⟩
      | cons first others =>
          have round := (counts.readyIn_eq reached).trans ready
          have shorter := len ▸ length_waitingIn_lt round
          rw [counts.waitingIn_eq reached] at shorter
          obtain ⟨ordered, levels, same⟩ := ih _ shorter (reached.next distinct) rfl
          refine ⟨_, levels.cons, ?_⟩
          rw [inRounds_of_some round, counts.waitingIn_eq reached, ← ready, same]

end Ranks

/-! ## The depth of a definition -/

namespace Declarations

variable {file : Declarations} {d e : Definition} {j k : ℕ} {p : String}

/-- A resource of the file extends another. -/
def Extends (file : Declarations) (a b : String) : Prop :=
  ∃ d ∈ file.resources, d.name = a ∧ d.parent = some b

/-- How many parents there are above a definition, up to one that has none. -/
inductive AtDepth (file : Declarations) : Definition → ℕ → Prop
  | root {d : Definition} : d.parent = none → AtDepth file d 0
  | child {d e : Definition} {k : ℕ} : d.parent = some e.name → e ∈ file.resources →
      AtDepth file e k → AtDepth file d (k + 1)

open Classical in
/-- The depth of a definition, or `⊤` where its parents never end. -/
noncomputable def depth (file : Declarations) (d : Definition) : ℕ∞ :=
  if h : ∃ k, file.AtDepth d k then h.choose else ⊤

theorem depth_eq_top_iff : file.depth d = ⊤ ↔ ∀ k, ¬ file.AtDepth d k := by
  unfold depth
  split
  case isTrue h =>
    exact ⟨fun top => absurd top (ENat.natCast_ne_top _), fun none => absurd h.choose_spec (none _)⟩
  case isFalse h => exact ⟨fun _ k at_ => h ⟨k, at_⟩, fun _ => rfl⟩

section Distinct

variable (distinct : file.names.Nodup)

include distinct

theorem AtDepth.eq (h : file.AtDepth d j) (h' : file.AtDepth d k) : j = k := by
  induction h generalizing k with
  | root none =>
      cases h' with
      | root => rfl
      | child up => rw [none] at up; cases up
  | child up mem _ ih =>
      cases h' with
      | root none => rw [none] at up; cases up
      | child up' mem' h' =>
          have same := Option.some.inj (up.symm.trans up')
          obtain rfl := List.inj_on_of_nodup_map distinct mem mem' same
          rw [ih h']

theorem depth_eq_iff : file.depth d = k ↔ file.AtDepth d k := by
  unfold depth
  split
  case isTrue h =>
    constructor
    · intro same
      rw [← Nat.cast_inj.1 same]
      exact h.choose_spec
    · exact fun at_ => congrArg _ (h.choose_spec.eq distinct at_)
  case isFalse h => exact ⟨fun top => absurd top (ENat.top_ne_natCast k), fun at_ => absurd ⟨k, at_⟩ h⟩

theorem depth_of_root (none : d.parent = none) : file.depth d = 0 :=
  (depth_eq_iff distinct).2 (.root none)

/-- A definition is one deeper than its parent. -/
theorem depth_of_child (up : d.parent = some e.name) (mem : e ∈ file.resources) :
    file.depth d = file.depth e + 1 := by
  by_cases endless : file.depth e = ⊤
  · rw [endless, top_add, depth_eq_top_iff]
    intro k at_
    cases at_ with
    | root none => rw [none] at up; cases up
    | child up' mem' at_ =>
        have same := Option.some.inj (up.symm.trans up')
        obtain rfl := List.inj_on_of_nodup_map distinct mem mem' same
        exact depth_eq_top_iff.1 endless _ at_
  · obtain ⟨k, ranked⟩ := ENat.ne_top_iff_exists.1 endless
    rw [← ranked, ← Nat.cast_add_one, depth_eq_iff distinct]
    exact .child up mem ((depth_eq_iff distinct).1 ranked.symm)

/-- Depth counts the rounds in which the definitions of a file are placed. -/
theorem counts_depth (known : ∀ d ∈ file.resources, ∀ p, d.parent = some p → p ∈ file.names) :
    Counts (·.name) isReady file.depth file.resources := by
  intro k placed reached d mem
  rw [isReady_iff]
  cases up : d.parent with
  | none => simp [depth_of_root distinct up]
  | some p =>
      obtain ⟨e, mem', rfl⟩ := List.mem_map.1 (known d mem p up)
      rw [depth_of_child distinct up mem']
      have early : (∀ p, some e.name = some p → p ∈ placed) ↔ e.name ∈ placed := by simp
      rw [early, reached e mem']
      by_cases endless : file.depth e = ⊤
      · simp [endless]
      · exact (ENat.add_one_le_iff endless).symm

/-- Above a definition that has a depth there are only such of less depth. -/
theorem AtDepth.exists_above {n m : String} (path : Relation.TransGen file.Extends n m)
    (mem : d ∈ file.resources) (named : d.name = n) (at_ : file.AtDepth d k) :
    ∃ e ∈ file.resources, e.name = m ∧ ∃ j, j < k ∧ file.AtDepth e j := by
  have step : ∀ {d : Definition} {k : ℕ} {m : String}, d ∈ file.resources →
      file.AtDepth d k → file.Extends d.name m →
      ∃ e ∈ file.resources, e.name = m ∧ ∃ j, j < k ∧ file.AtDepth e j := by
    rintro d k m mem at_ ⟨d', mem', same, up⟩
    obtain rfl := List.inj_on_of_nodup_map distinct mem' mem same
    cases at_ with
    | root none => rw [none] at up; cases up
    | child up' above at_ =>
        exact ⟨_, above, Option.some.inj (up'.symm.trans up), _, Nat.lt_succ_self _, at_⟩
  induction path with
  | single last => exact step mem at_ (named ▸ last)
  | tail _ last ih =>
      obtain ⟨e, above, rfl, j, less, at_⟩ := ih
      obtain ⟨e', above', named', i, less', at_⟩ := step above at_ last
      exact ⟨e', above', named', i, less'.trans less, at_⟩

end Distinct

/-- No resource reaches itself through its parents just if every definition has a depth. -/
theorem acyclic_iff (distinct : file.names.Nodup)
    (known : ∀ d ∈ file.resources, ∀ p, d.parent = some p → p ∈ file.names) :
    (∀ n, ¬ Relation.TransGen file.Extends n n) ↔ ∀ d ∈ file.resources, ∃ k, file.AtDepth d k := by
  constructor
  · intro acyclic
    by_contra endless
    have some : (file.resources.filter (file.depth · = ⊤)).map (·.name) ≠ [] := by
      simpa [depth_eq_top_iff] using endless
    obtain ⟨a, mem, least⟩ := exists_minimal_of_acyclic acyclic some
    obtain ⟨d, among, rfl⟩ := List.mem_map.1 mem
    obtain ⟨there, top⟩ := List.mem_filter.1 among
    rw [decide_eq_true_eq] at top
    cases up : d.parent with
    | none =>
        rw [depth_of_root distinct up] at top
        exact absurd top ENat.zero_ne_top
    | some p =>
        obtain ⟨e, mem', rfl⟩ := List.mem_map.1 (known d there p up)
        rw [depth_of_child distinct up mem'] at top
        have endless : file.depth e = ⊤ := by simpa using top
        refine least e.name (List.mem_map_of_mem (List.mem_filter.2 ⟨mem', ?_⟩)) ⟨d, there, rfl, up⟩
        exact decide_eq_true endless
  · intro ends n cycle
    obtain ⟨_, ⟨d, mem, named, _⟩, _⟩ := Relation.TransGen.head'_iff.1 cycle
    obtain ⟨k, at_⟩ := ends d mem
    obtain ⟨e, mem', named', j, less, at'⟩ := AtDepth.exists_above distinct cycle mem named at_
    obtain rfl := List.inj_on_of_nodup_map distinct mem' mem (named'.trans named.symm)
    exact less.ne (at'.eq distinct at_)

/-- What has a depth comes out level by level, and what has none is stuck. -/
theorem exists_levels (accepted : file.validate = .ok ()) :
    ∃ ordered, InLevels file.depth file.resources 0 ordered ∧
      inRounds (·.name) isReady [] file.resources
        = (ordered, file.resources.filter (file.depth · = ⊤)) := by
  obtain ⟨_, once, checked⟩ := validate_eq_ok.1 accepted
  have distinct := (nodup_of_repeatedName? once).1
  have known := fun d mem => (checkDefinition_eq_ok.1 (checked d mem)).1
  have reached : Reached (·.name) file.depth file.resources [] 0 := by simp [Reached]
  obtain ⟨ordered, levels, same⟩ := inRounds_of_counts distinct (counts_depth distinct known) reached
  rw [List.filter_eq_self.2 (by simp)] at same
  exact ⟨ordered, levels, same⟩

/-- Where every definition has a depth, levels are sorted by depths that are numbers. -/
theorem exists_depths (distinct : file.names.Nodup) {ordered : List Definition}
    (levels : InLevels file.depth file.resources 0 ordered) (perm : ordered.Perm file.resources)
    (finite : ∀ d ∈ file.resources, file.depth d = (file.depth d).toNat) :
    ∃ depth : Definition → ℕ, (∀ d ∈ file.resources, file.AtDepth d (depth d)) ∧
      ordered.Pairwise (depth · ≤ depth ·) ∧
      ∀ k, ordered.filter (depth · = k) = file.resources.filter (depth · = k) := by
  have inside : ∀ {d}, d ∈ ordered ↔ d ∈ file.resources := perm.mem_iff
  refine ⟨fun d => (file.depth d).toNat, fun d mem => (depth_eq_iff distinct).1 (finite d mem), ?_, ?_⟩
  · refine levels.sorted.imp_of_mem fun mem mem' le => ?_
    rwa [finite _ (inside.1 mem), finite _ (inside.1 mem'), Nat.cast_le] at le
  · intro k
    have same : ∀ ds : List Definition, (∀ d ∈ ds, d ∈ file.resources) →
        ds.filter (fun d => (file.depth d).toNat = k) = ds.filter (file.depth · = k) := by
      intro ds known
      refine List.filter_congr fun d mem => decide_eq_decide.2 ?_
      rw [← Nat.cast_inj (R := ℕ∞), ← finite d (known d mem)]
    rw [same _ fun d => inside.1, same _ fun d mem => mem, levels.stable k (Nat.zero_le k)]

theorem inOrder_eq_error {ordered stuck : List Definition} {e : Error}
    (rounds : inRounds (·.name) isReady [] file.resources = (ordered, stuck))
    (failed : file.inOrder = .error e) : e = .invalidDeclarations
      ("Inheritance cycle between resources: " ++ Text.quotedNames (stuck.map (·.name))) := by
  unfold inOrder at failed
  rw [rounds] at failed
  split at failed
  · cases failed
  · rename_i same
    obtain rfl := (Prod.mk.inj same).2
    exact (Except.error.inj failed).symm

/-- Of a file that is accepted, the order is found just if no resource reaches itself through its
parents.  It is then all of the file, sorted by depth and within one depth as in the file, so that
parents precede their subclasses.  Otherwise the resources whose parents never end are named, as they
stand in the file. -/
theorem inOrder_by_depth (accepted : file.validate = .ok ()) :
    ((∃ ordered, file.inOrder = .ok ordered) ↔ ∀ n, ¬ Relation.TransGen file.Extends n n) ∧
    (∀ ordered, file.inOrder = .ok ordered →
      ordered.Perm file.resources ∧
      (∀ before d after, ordered = before ++ d :: after →
        ∀ p, d.parent = some p → p ∈ before.map (·.name)) ∧
      ∃ depth : Definition → ℕ, (∀ d ∈ file.resources, file.AtDepth d (depth d)) ∧
        ordered.Pairwise (depth · ≤ depth ·) ∧
        ∀ k, ordered.filter (depth · = k) = file.resources.filter (depth · = k)) ∧
    ∀ e, file.inOrder = .error e → ∃ stuck : List Definition, stuck.Sublist file.resources ∧
      (∀ d, d ∈ stuck ↔ d ∈ file.resources ∧ ∀ k, ¬ file.AtDepth d k) ∧
      e = .invalidDeclarations ("Inheritance cycle between resources: "
        ++ Text.quotedNames (stuck.map (·.name))) := by
  obtain ⟨_, once, checked⟩ := validate_eq_ok.1 accepted
  have distinct := (nodup_of_repeatedName? once).1
  obtain ⟨levelled, levels, rounds⟩ := exists_levels accepted
  have placed : ∀ {ordered}, file.inOrder = .ok ordered → ordered = levelled
      ∧ ∀ d ∈ file.resources, file.depth d = (file.depth d).toNat := by
    intro ordered placed
    rw [inOrder_eq_ok, rounds, Prod.mk.injEq] at placed
    refine ⟨placed.1.symm, fun d mem => (ENat.natCast_toNat fun top => ?_).symm⟩
    exact List.filter_eq_nil_iff.1 placed.2 d mem (decide_eq_true top)
  refine ⟨?_, fun ordered found => ⟨perm_of_inOrder found, ?_, ?_⟩, fun e failed => ?_⟩
  · rw [acyclic_iff distinct fun d mem => (checkDefinition_eq_ok.1 (checked d mem)).1]
    constructor
    · rintro ⟨ordered, found⟩ d mem
      exact ⟨_, (depth_eq_iff distinct).1 ((placed found).2 d mem)⟩
    · intro ends
      refine ⟨levelled, inOrder_eq_ok.2 ?_⟩
      rw [rounds, List.filter_eq_nil_iff.2]
      intro d mem top
      obtain ⟨k, at_⟩ := ends d mem
      exact depth_eq_top_iff.1 (of_decide_eq_true top) k at_
  · rintro before d after rfl p up
    exact parent_mem_of_inOrder found up
  · obtain ⟨rfl, finite⟩ := placed found
    exact exists_depths distinct levels (perm_of_inOrder found) finite
  · refine ⟨_, List.filter_sublist, fun d => ?_, inOrder_eq_error rounds failed⟩
    rw [List.mem_filter, decide_eq_true_eq, depth_eq_top_iff]

/-- A file in which parents come after their subclasses. -/
def lateParents : Declarations :=
  { resources := [{ name := "Paperback", parent := some "Book" },
      { name := "Book", parent := some "Item" }, { name := "Item" }, { name := "Author" },
      { name := "Magazine", parent := some "Item" }] }

/-- The same with two resources that are below each other, and one below these. -/
def knottedParents : Declarations :=
  { resources := lateParents.resources ++ [{ name := "Trilogy", parent := some "Sequel" },
      { name := "Sequel", parent := some "Prequel" }, { name := "Prequel", parent := some "Sequel" }] }

theorem inOrder_by_depth_items :
    lateParents.validate = .ok () ∧ (∀ n, ¬ Relation.TransGen lateParents.Extends n n) ∧
    knottedParents.validate = .ok () ∧ (∃ n, Relation.TransGen knottedParents.Extends n n) ∧
    ∃ e, knottedParents.inOrder = .error e ∧
      ∃ stuck : List Definition, stuck.Sublist knottedParents.resources ∧
        e = .invalidDeclarations ("Inheritance cycle between resources: "
          ++ Text.quotedNames (stuck.map (·.name))) := by
  have late : lateParents.validate = .ok () := by decide
  have knotted : knottedParents.validate = .ok () := by decide
  have placed : (lateParents.inOrder.map (·.map (·.name)))
      = .ok ["Item", "Author", "Book", "Magazine", "Paperback"] := by cbv
  have stuck : knottedParents.inOrder = .error (.invalidDeclarations
      "Inheritance cycle between resources: [\"Trilogy\", \"Sequel\", \"Prequel\"]") := by cbv
  obtain ⟨acyclic, _, _⟩ := inOrder_by_depth late
  obtain ⟨cyclic, _, refused⟩ := inOrder_by_depth knotted
  obtain ⟨reported, inFile, _, same⟩ := refused _ stuck
  refine ⟨late, acyclic.1 ?_, knotted, ?_, _, stuck, reported, inFile, same⟩
  · cases found : lateParents.inOrder with
    | ok ordered => exact ⟨ordered, rfl⟩
    | error e => rw [found] at placed; cases placed
  · by_contra none
    obtain ⟨ordered, found⟩ := cyclic.2 (not_exists.1 none)
    rw [stuck] at found
    cases found

end Declarations

end ResourceTables
