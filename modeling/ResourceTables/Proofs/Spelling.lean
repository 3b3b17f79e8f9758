/-
# `ResourceTables.Proofs.Spelling` — identifiers, and what becomes of them in snake case

The characters of an identifier are clusters of their own, so that snake case only cuts it into words,
drops its underscores, puts one between any two words and writes all letters small.  What comes out is
an identifier again unless a digit has come to the front, or nothing is left.
-/
import Mathlib
import ResourceTables.Naming

namespace ResourceTables

/-! ## Where a beginning ends -/

section Beginnings

variable {α : Type} {before before' rest rest' : List α}

/-- Two lists that are one fall apart alike at the first element of a kind, or at the end where there
is none. -/
theorem append_inj_of_stop (stop : α → Prop) (clear : ∀ x ∈ before, ¬ stop x)
    (clear' : ∀ x ∈ before', ¬ stop x)
    (ends : ∀ x ∈ rest.head?, stop x) (ends' : ∀ x ∈ rest'.head?, stop x)
    (same : before ++ rest = before' ++ rest') : before = before' ∧ rest = rest' := by
  induction before generalizing before' with
  | nil =>
      cases before' with
      | nil => exact ⟨rfl, same⟩
      | cons y before' =>
          rw [List.nil_append, List.cons_append] at same
          exact absurd (ends y (by rw [same, List.head?_cons]; rfl)) (clear' y List.mem_cons_self)
  | cons x before ih =>
      cases before' with
      | nil =>
          rw [List.nil_append, List.cons_append] at same
          exact absurd (ends' x (by rw [← same, List.head?_cons]; rfl)) (clear x List.mem_cons_self)
      | cons y before' =>
          rw [List.cons_append, List.cons_append, List.cons.injEq] at same
          obtain ⟨rfl, same⟩ := same
          obtain ⟨rfl, tails⟩ :=
            ih (List.forall_mem_cons.1 clear).2 (List.forall_mem_cons.1 clear').2 same
          exact ⟨rfl, tails⟩

/-- Where an element stands in neither of two beginnings, the lists that go on with it fall apart at
it. -/
theorem append_cons_inj {x : α} (out : x ∉ before) (out' : x ∉ before') :
    before ++ x :: rest = before' ++ x :: rest' ↔ before = before' ∧ rest = rest' := by
  constructor
  · intro same
    obtain ⟨beginnings, tails⟩ := append_inj_of_stop (· = x)
      (fun y mem here => out (here ▸ mem)) (fun y mem here => out' (here ▸ mem))
      (fun y head => (Option.mem_some.1 head).symm) (fun y head => (Option.mem_some.1 head).symm) same
    exact ⟨beginnings, (List.cons.inj tails).2⟩
  · rintro ⟨rfl, rfl⟩
    rfl

end Beginnings

namespace Naming

open Text

/-! ## Identifiers -/

/-- Letters, digits and underscores are plain characters. -/
theorem toNat_of_isIdentifierRest {c : Char} (h : isIdentifierRest c = true) :
    0x30 ≤ c.toNat ∧ c.toNat ≤ 0x7A := by
  simp only [isIdentifierRest, Char.isAlphanum, Char.isAlpha, Char.isUpper, Char.isLower,
    Char.isDigit, Bool.or_eq_true, Bool.and_eq_true, decide_eq_true_eq, beq_iff_eq, ge_iff_le,
    UInt32.le_iff_toNat_le] at h
  change (((65 ≤ c.toNat ∧ c.toNat ≤ 90) ∨ (97 ≤ c.toNat ∧ c.toNat ≤ 122)) ∨
    (48 ≤ c.toNat ∧ c.toNat ≤ 57)) ∨ c = '_' at h
  rcases h with ((upper | lower) | digit) | rfl
  · omega
  · omega
  · omega
  · decide

theorem isIdentifierRest_of_start {c : Char} (h : isIdentifierStart c = true) :
    isIdentifierRest c = true := by
  rw [isIdentifierStart, Bool.or_eq_true] at h
  rw [isIdentifierRest, Char.isAlphanum, Bool.or_eq_true, Bool.or_eq_true]
  exact h.imp_left .inl

theorem isIdentifier_iff {name : String} : isIdentifier name = true ↔
    ∃ c rest, name.toList = c :: rest ∧ isIdentifierStart c = true
      ∧ ∀ x ∈ rest, isIdentifierRest x = true := by
  unfold isIdentifier
  cases chars : name.toList with
  | nil => simp
  | cons c rest => simp

theorem rest_of_isIdentifier {name : String} (h : isIdentifier name = true) :
    ∀ c ∈ name.toList, isIdentifierRest c = true := by
  obtain ⟨c, rest, chars, start, others⟩ := isIdentifier_iff.1 h
  rw [chars]
  exact List.forall_mem_cons.2 ⟨isIdentifierRest_of_start start, others⟩

/-- A dot belongs to no identifier. -/
theorem no_dot_of_isIdentifier {name : String} (h : isIdentifier name = true) :
    '.' ∉ name.toList :=
  fun mem => absurd (rest_of_isIdentifier h _ mem) (by decide)

/-- More letters, digits and underscores make an identifier longer. -/
theorem isIdentifier_append {name more : String} (h : isIdentifier name = true)
    (rest : ∀ c ∈ more.toList, isIdentifierRest c = true) : isIdentifier (name ++ more) = true := by
  obtain ⟨c, others, chars, start, plain⟩ := isIdentifier_iff.1 h
  refine isIdentifier_iff.2 ⟨c, others ++ more.toList, ?_, start, ?_⟩
  · rw [String.toList_append, chars, List.cons_append]
  · exact List.forall_mem_append.2 ⟨plain, rest⟩

/-! ## Clusters -/

/-- An edge where the class of the next character decides. -/
structure Settled (edge : ClusterEdge) : Prop where
  last : edge.last = .other
  joined : edge.joined = false
  linked : edge.linked = false

theorem clusterClass_of_isIdentifierRest {c : Char} (h : isIdentifierRest c = true) :
    clusterClass c = .other := by
  obtain ⟨low, high⟩ := toNat_of_isIdentifierRest h
  have plain : codeIn 0x20 0x7E c = true := by
    rw [codeIn, Bool.and_eq_true, decide_eq_true_eq, decide_eq_true_eq]
    omega
  have notReturn : (c == '\r') = false := by
    rw [beq_eq_false_iff_ne]
    rintro rfl
    exact absurd low (by decide)
  have notFeed : (c == '\n') = false := by
    rw [beq_eq_false_iff_ne]
    rintro rfl
    exact absurd low (by decide)
  simp only [clusterClass, notReturn, notFeed, plain, Bool.false_eq_true, if_false, if_true]

theorem settled_first {c : Char} (h : isIdentifierRest c = true) : Settled (.first c) :=
  ⟨clusterClass_of_isIdentifierRest h, rfl, rfl⟩

theorem settled_next {edge : ClusterEdge} {c : Char} (h : isIdentifierRest c = true) :
    Settled (edge.next c) := by
  have other := clusterClass_of_isIdentifierRest h
  refine ⟨other, ?_, ?_⟩
  · simp [ClusterEdge.next, other]
  · simp [ClusterEdge.next, staysInConjunct, other]

theorem Settled.takes {edge : ClusterEdge} (settled : Settled edge) {c : Char}
    (h : isIdentifierRest c = true) : edge.takes c = false := by
  simp [ClusterEdge.takes, settled.last, settled.joined, settled.linked,
    clusterClass_of_isIdentifierRest h]

theorem clustersFrom_of_rest {edge : ClusterEdge} (settled : Settled edge) (current : List Char)
    {cs : List Char} (h : ∀ c ∈ cs, isIdentifierRest c = true) :
    clustersFrom edge current cs = current.reverse :: cs.map fun c => [c] := by
  induction cs generalizing edge current with
  | nil => rfl
  | cons c rest ih =>
      obtain ⟨here, later⟩ := List.forall_mem_cons.1 h
      rw [clustersFrom, if_neg (by rw [settled.takes here]; decide), ih (settled_next here) _ later]
      rfl

/-- Letters, digits and underscores are clusters of their own. -/
theorem clusters_of_rest {cs : List Char} (h : ∀ c ∈ cs, isIdentifierRest c = true) :
    clusters cs = cs.map fun c => [c] := by
  cases cs with
  | nil => rfl
  | cons c rest =>
      obtain ⟨here, later⟩ := List.forall_mem_cons.1 h
      exact clustersFrom_of_rest (settled_first here) [c] later

/-! ## Words -/

/-- Cutting a name into words loses the separators only. -/
theorem flatten_wordsFrom (before : Option (List Char)) (current : List Char)
    (gs : List (List Char)) : (wordsFrom before current gs).flatten
      = current.reverse ++ (gs.filter (!isSeparator ·)).flatten := by
  induction gs generalizing before current with
  | nil => simp [wordsFrom]
  | cons g rest ih =>
      rw [wordsFrom]
      by_cases separator : isSeparator g
      · simp [separator, ih]
      · by_cases begins : wordBegins before (g :: rest)
        · simp [separator, begins, ih]
        · simp [separator, begins, ih]

theorem lowerFrom_of_ascii {before cs : List Char} (h : ∀ c ∈ cs, c.toNat < 0x80) :
    lowerFrom before cs = cs.map Char.toLower := by
  induction cs generalizing before with
  | nil => rfl
  | cons c rest ih =>
      obtain ⟨here, later⟩ := List.forall_mem_cons.1 h
      have noSigma : (c == 'Σ') = false := by
        rw [beq_eq_false_iff_ne]
        rintro rfl
        exact absurd here (by decide)
      rw [lowerFrom, noSigma, ih later, lowerChar, if_pos here]
      rfl

theorem words_eq (name : String) : (wordsOf name).map String.toList
    = (wordsFrom none [] (clusters name.toList)).filter (!·.isEmpty) := by
  simp [wordsOf, Function.comp_def]

/-- What is left of an identifier where its underscores vanish. -/
theorem flatten_wordsOf {name : String} (h : isIdentifier name = true) :
    ((wordsOf name).map String.toList).flatten = name.toList.filter (· != '_') := by
  have rest := rest_of_isIdentifier h
  have single : ∀ c ∈ name.toList, (!isSeparator [c]) = (c != '_') := by
    intro c mem
    have noDash : (c == '-') = false := by
      rw [beq_eq_false_iff_ne]
      rintro rfl
      exact absurd (rest _ mem) (by decide)
    have noSpace : (c == ' ') = false := by
      rw [beq_eq_false_iff_ne]
      rintro rfl
      exact absurd (rest _ mem) (by decide)
    simp [isSeparator, noDash, noSpace, bne]
  have separated : ((name.toList.map fun c => [c]).filter (!isSeparator ·))
      = (name.toList.filter (· != '_')).map fun c => [c] := by
    rw [List.filter_map]
    exact congrArg _ (List.filter_congr single)
  rw [words_eq, List.flatten_filter_not_isEmpty, flatten_wordsFrom, clusters_of_rest rest, separated]
  rw [← List.flatMap_def, List.reverse_nil, List.nil_append, List.flatMap_singleton']

theorem mem_words {name : String} (h : isIdentifier name = true) {w : List Char} {c : Char}
    (mem : w ∈ (wordsOf name).map String.toList) (inside : c ∈ w) :
    isIdentifierRest c = true ∧ c ≠ '_' := by
  have within : c ∈ name.toList.filter (· != '_') :=
    flatten_wordsOf h ▸ List.mem_flatten.2 ⟨w, mem, inside⟩
  rw [List.mem_filter, bne_iff_ne] at within
  exact ⟨rest_of_isIdentifier h c within.1, within.2⟩

theorem ne_nil_of_mem_words {name : String} {w : List Char}
    (mem : w ∈ (wordsOf name).map String.toList) : w ≠ [] := by
  rw [words_eq] at mem
  simpa using (List.mem_filter.1 mem).2

/-! ## Snake case -/

/-- Whether the first character that is no underscore is a letter. -/
def leadsWithLetter (name : String) : Bool := (name.toList.find? (· != '_')).any Char.isAlpha

theorem rest_intercalate {words : List (List Char)}
    (h : ∀ w ∈ words, ∀ c ∈ w, isIdentifierRest c = true) :
    ∀ c ∈ ['_'].intercalate words, isIdentifierRest c = true := by
  induction words with
  | nil => simp
  | cons w words ih =>
      obtain ⟨here, later⟩ := List.forall_mem_cons.1 h
      cases words with
      | nil => simpa using here
      | cons w' words =>
          rw [List.intercalate_cons_cons]
          refine List.forall_mem_append.2 ⟨List.forall_mem_append.2 ⟨here, ?_⟩, ih later⟩
          simp [isIdentifierRest]

theorem isIdentifierRest_toLower {c : Char} (h : isIdentifierRest c = true) :
    isIdentifierRest c.toLower = true := by
  by_cases upper : c.isUpper
  · have letter : c.toLower.isAlpha = true := by
      rw [Char.isAlpha_toLower_eq_isAlpha, Char.isAlpha, upper, Bool.true_or]
    rw [isIdentifierRest, Char.isAlphanum, letter]
    rfl
  · rwa [Char.toLower_eq_of_not_isUpper upper]

/-- What begins a word of an identifier can begin one in lower case just if it is a letter. -/
theorem isIdentifierStart_toLower {c : Char} (h : c ≠ '_') :
    isIdentifierStart c.toLower = c.isAlpha := by
  have notUnderscore : c.toLower ≠ '_' := by
    by_cases upper : c.isUpper
    · intro same
      have letter : c.toLower.isAlpha = true := by
        rw [Char.isAlpha_toLower_eq_isAlpha, Char.isAlpha, upper, Bool.true_or]
      rw [same] at letter
      exact absurd letter (by decide)
    · rwa [Char.toLower_eq_of_not_isUpper upper]
  rw [isIdentifierStart, Char.isAlpha_toLower_eq_isAlpha, beq_eq_false_iff_ne.2 notUnderscore,
    Bool.or_false]

theorem toList_snakeCase {name : String} (h : isIdentifier name = true) : (snakeCase name).toList
    = ['_'].intercalate (((wordsOf name).map String.toList).map (·.map Char.toLower)) := by
  rw [snakeCase, String.toList_intercalate, List.map_map, List.map_map]
  refine congrArg (List.intercalate ['_']) (List.map_congr_left fun w mem => ?_)
  change (lower w).toList = w.toList.map Char.toLower
  rw [lower, String.toList_ofList]
  refine lowerFrom_of_ascii fun c inside => ?_
  have high := (toNat_of_isIdentifierRest (mem_words h (List.mem_map_of_mem mem) inside).1).2
  omega

/-- The snake case of an identifier is one just if the identifier leads with a letter. -/
theorem isIdentifier_snakeCase {name : String} (h : isIdentifier name = true) :
    isIdentifier (snakeCase name) = leadsWithLetter name := by
  have first : name.toList.find? (· != '_') = ((wordsOf name).map String.toList).flatten.head? := by
    rw [flatten_wordsOf h, List.head?_filter]
  have chars := toList_snakeCase h
  have rest : ∀ c ∈ (snakeCase name).toList, isIdentifierRest c = true := by
    rw [chars]
    refine rest_intercalate fun w' mem c' inside => ?_
    obtain ⟨w, word, rfl⟩ := List.mem_map.1 mem
    obtain ⟨c, within, rfl⟩ := List.mem_map.1 inside
    exact isIdentifierRest_toLower (mem_words h word within).1
  rw [leadsWithLetter, first]
  cases words : (wordsOf name).map String.toList with
  | nil =>
      rw [isIdentifier, chars, words]
      rfl
  | cons w more =>
      have member : w ∈ (wordsOf name).map String.toList := words ▸ List.mem_cons_self
      obtain ⟨c, others, rfl⟩ := List.exists_cons_of_ne_nil (ne_nil_of_mem_words member)
      rw [words, List.map_cons, List.map_cons, List.intercalate_cons_cons_left] at chars
      rw [chars] at rest
      rw [isIdentifier, chars, List.flatten_cons, List.cons_append, List.head?_cons, Option.any_some,
        ← isIdentifierStart_toLower (mem_words h member List.mem_cons_self).2]
      exact (congrArg _ (List.all_eq_true.2 (List.forall_mem_cons.1 rest).2)).trans (Bool.and_true _)

end Naming

end ResourceTables
