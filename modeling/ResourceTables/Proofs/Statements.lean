/-
# `ResourceTables.Proofs.Statements` — a `CREATE TABLE` statement can be read back

A statement is a list of lines: one for each column, one for the primary key, one for each foreign key.
Nothing but their wording tells these kinds apart, and a column may be called `CONSTRAINT` or `PRIMARY`.
What decides is the second word of a line: after the name of a column stands a type, and no type is
spelled `KEY`, nor does anything but `NOT NULL` and `UNIQUE` follow one.

Two statements are compared from the left.  An identifier ends where the first character comes that no
identifier holds, a list of names at the bracket, a line at the line break, and the lines of the columns
where the first line comes that is none of a column.  Each time the text falls apart in one way only.
-/
import Mathlib
import ResourceTables.Ddl
import ResourceTables.Proofs.Spelling

namespace ResourceTables

/-! ## Joined lists -/

section Joined

variable {α : Type} {before : List α}

theorem intercalate_cons_cons_eq (before : List α) (mark : α) (after w v : List α)
    (more : List (List α)) : (before ++ mark :: after).intercalate (w :: v :: more)
      = (w ++ before) ++ mark :: (after ++ (before ++ mark :: after).intercalate (v :: more)) := by
  rw [List.intercalate_cons_cons]
  simp only [List.append_assoc, List.cons_append]

theorem eq_nil_of_intercalate_eq_nil {separator : List α} {parts : List (List α)}
    (full : ∀ part ∈ parts, part ≠ []) (empty : separator.intercalate parts = []) : parts = [] := by
  cases parts with
  | nil => rfl
  | cons w more =>
      obtain ⟨x, rest, rfl⟩ := List.exists_cons_of_ne_nil (full w List.mem_cons_self)
      rw [List.intercalate_cons_cons_left] at empty
      exact absurd empty (List.cons_ne_nil x _)

/-- Parts that are joined with a mark that stands in none of them can be told apart, if none is empty:
no part at all and one empty part would look the same. -/
theorem intercalate_inj {mark : α} {parts parts' : List (List α)} (after : List α)
    (free : mark ∉ before) (clear : ∀ part ∈ parts, part ≠ [] ∧ mark ∉ part)
    (clear' : ∀ part ∈ parts', part ≠ [] ∧ mark ∉ part)
    (same : (before ++ mark :: after).intercalate parts
      = (before ++ mark :: after).intercalate parts') : parts = parts' := by
  induction parts generalizing parts' with
  | nil =>
      rw [List.intercalate_nil] at same
      exact (eq_nil_of_intercalate_eq_nil (fun w mem => (clear' w mem).1) same.symm).symm
  | cons w parts ih =>
      obtain ⟨⟨-, out⟩, later⟩ := List.forall_mem_cons.1 clear
      cases parts' with
      | nil =>
          rw [List.intercalate_nil] at same
          exact eq_nil_of_intercalate_eq_nil (fun w mem => (clear w mem).1) same
      | cons w' parts' =>
          obtain ⟨⟨-, out'⟩, later'⟩ := List.forall_mem_cons.1 clear'
          -- A list that goes on has the mark behind its first part, and one that does not has none.
          cases parts with
          | nil =>
              cases parts' with
              | nil =>
                  rw [List.intercalate_singleton, List.intercalate_singleton] at same
                  rw [same]
              | cons v' parts' =>
                  rw [List.intercalate_singleton, intercalate_cons_cons_eq] at same
                  exact absurd (by simp [same]) out
          | cons v parts =>
              cases parts' with
              | nil =>
                  rw [List.intercalate_singleton, intercalate_cons_cons_eq] at same
                  exact absurd (by simp [← same]) out'
              | cons v' parts' =>
                  rw [intercalate_cons_cons_eq, intercalate_cons_cons_eq] at same
                  obtain ⟨first, others⟩ := (append_cons_inj
                    (List.not_mem_append out free) (List.not_mem_append out' free)).1 same
                  rw [List.append_cancel_right first, ih later later' (List.append_cancel_left others)]

/-- An element of a joined list comes from the separator or from one of the parts. -/
theorem mem_intercalate {separator : List α} {parts : List (List α)} {x : α}
    (mem : x ∈ separator.intercalate parts) : x ∈ separator ∨ ∃ part ∈ parts, x ∈ part := by
  induction parts with
  | nil => exact absurd mem (by simp)
  | cons w parts ih =>
      cases parts with
      | nil => exact .inr ⟨w, List.mem_cons_self, by simpa using mem⟩
      | cons v parts =>
          rw [List.intercalate_cons_cons, List.mem_append, List.mem_append] at mem
          rcases mem with (here | between) | later
          · exact .inr ⟨w, List.mem_cons_self, here⟩
          · exact .inl between
          · obtain separates | ⟨part, known, inside⟩ := ih later
            · exact .inl separates
            · exact .inr ⟨part, List.mem_cons_of_mem w known, inside⟩

/-- What is read off one element can be read off the lists of what was read off all elements. -/
theorem map_eq_of_map_eq {β γ : Type} {f : α → β} {g : α → γ} {xs ys : List α}
    (read : ∀ x ∈ xs, ∀ y ∈ ys, f x = f y → g x = g y) (same : xs.map f = ys.map f) :
    xs.map g = ys.map g := by
  induction xs generalizing ys with
  | nil => rw [List.map_eq_nil_iff.1 same.symm]
  | cons x xs ih =>
      obtain ⟨y, ys, rfl, here, later⟩ := List.map_eq_cons_iff.1 same.symm
      rw [List.map_cons, List.map_cons, read x List.mem_cons_self y List.mem_cons_self here.symm,
        ih (fun x mem y mem' => read x (List.mem_cons_of_mem _ mem) y (List.mem_cons_of_mem _ mem'))
          later.symm]

end Joined

/-! ## Names in a text -/

namespace Naming

variable {name name' : String} {names names' : List String} {c : Char} {rest rest' : List Char}

/-- A table is named by an identifier, after the identifier of its schema if it has one. -/
def IsQualified (name : String) : Prop :=
  isIdentifier name = true
    ∨ ∃ schema table, isIdentifier schema = true ∧ isIdentifier table = true
        ∧ name = s!"{schema}.{table}"

theorem not_mem_of_isIdentifier (h : isIdentifier name = true) (other : isIdentifierRest c = false) :
    c ∉ name.toList :=
  fun mem => Bool.false_ne_true (other.symm.trans (rest_of_isIdentifier h c mem))

theorem IsQualified.not_mem (h : IsQualified name) (other : isIdentifierRest c = false)
    (noDot : c ≠ '.') : c ∉ name.toList := by
  rcases h with single | ⟨schema, table, first, second, rfl⟩
  · exact not_mem_of_isIdentifier single other
  · change c ∉ (schema ++ "." ++ table).toList
    simp [String.toList_append, not_mem_of_isIdentifier first other,
      not_mem_of_isIdentifier second other, noDot]

theorem toList_ne_nil (h : isIdentifier name = true) : name.toList ≠ [] := by
  obtain ⟨c, rest, chars, -, -⟩ := isIdentifier_iff.1 h
  rw [chars]
  exact List.cons_ne_nil c rest

/-- An identifier at the beginning of a text ends where no identifier goes on. -/
theorem identifier_append_inj (h : isIdentifier name = true) (h' : isIdentifier name' = true)
    (ends : ∀ c ∈ rest.head?, isIdentifierRest c = false)
    (ends' : ∀ c ∈ rest'.head?, isIdentifierRest c = false)
    (same : name.toList ++ rest = name'.toList ++ rest') : name = name' ∧ rest = rest' := by
  obtain ⟨names, rests⟩ := append_inj_of_stop (isIdentifierRest · = false)
    (fun c mem => by rw [rest_of_isIdentifier h c mem]; decide)
    (fun c mem => by rw [rest_of_isIdentifier h' c mem]; decide) ends ends' same
  exact ⟨String.toList_inj.1 names, rests⟩

/-- A list of identifiers holds nothing but them, commas and blanks. -/
theorem not_mem_joined (h : ∀ name ∈ names, isIdentifier name = true)
    (other : isIdentifierRest c = false) (outside : c ∉ [',', ' ']) :
    c ∉ (", ".intercalate names).toList := by
  intro mem
  rw [String.toList_intercalate] at mem
  rcases mem_intercalate mem with separator | ⟨part, among, inside⟩
  · exact outside separator
  · obtain ⟨name, known, rfl⟩ := List.mem_map.1 among
    exact not_mem_of_isIdentifier (h name known) other inside

/-- A list of identifiers in brackets can be read back. -/
theorem joined_inj (h : ∀ name ∈ names, isIdentifier name = true)
    (h' : ∀ name ∈ names', isIdentifier name = true)
    (same : (", ".intercalate names).toList ++ ')' :: rest
      = (", ".intercalate names').toList ++ ')' :: rest') : names = names' ∧ rest = rest' := by
  have clear : ∀ {names : List String}, (∀ name ∈ names, isIdentifier name = true) →
      ∀ part ∈ names.map String.toList, part ≠ [] ∧ ',' ∉ part := by
    intro names h part mem
    obtain ⟨name, known, rfl⟩ := List.mem_map.1 mem
    exact ⟨toList_ne_nil (h name known), not_mem_of_isIdentifier (h name known) (by decide)⟩
  obtain ⟨lists, rests⟩ := (append_cons_inj (not_mem_joined h (by decide) (by decide))
    (not_mem_joined h' (by decide) (by decide))).1 same
  rw [String.toList_intercalate, String.toList_intercalate] at lists
  have parts := intercalate_inj [' '] List.not_mem_nil (clear h) (clear h') lists
  exact ⟨List.map_injective_iff.2 (fun _ _ => String.toList_inj.1) parts, rests⟩

end Naming

/-! ## Types in a text -/

namespace StorageType

variable {type type' : StorageType} {c : Char} {rest rest' : List Char}

/-- A type that a statement spells in a word of its own. -/
def IsSpelled (type : StorageType) : Prop := ∀ text, type ≠ custom text

/-- The word that a type begins with. -/
def word : StorageType → String
  | numeric _ _ => "NUMERIC"
  | string _ => "VARCHAR"
  | other => other.sql

/-- The measures of a type, in brackets. -/
def measures : StorageType → List Char
  | numeric precision scale =>
    '(' :: (Nat.toDigits 10 precision ++ ',' :: ' ' :: (Nat.toDigits 10 scale ++ [')']))
  | string (some length) => '(' :: (Nat.toDigits 10 length ++ [')'])
  | _ => []

theorem toList_sql (type : StorageType) : type.sql.toList = type.word.toList ++ type.measures := by
  cases type with
  | numeric precision scale =>
      change (toString "NUMERIC(" ++ toString precision ++ toString ", " ++ toString scale
        ++ toString ")").toList = _
      simp [word, measures, String.toList_append, toString]
  | string length =>
      cases length with
      | none => simp [sql, word, measures]
      | some length =>
          change (toString "VARCHAR(" ++ toString length ++ toString ")").toList = _
          simp [word, measures, String.toList_append, toString]
  | _ => simp [word, measures]

theorem isIdentifier_word (spelled : type.IsSpelled) : Naming.isIdentifier type.word = true := by
  cases type with
  | numeric precision scale => rw [word]; rfl
  | string length => rw [word]; rfl
  | custom text => exact absurd rfl (spelled text)
  | _ => rfl

/-- No type is spelled like what follows the word `PRIMARY` in the line of a primary key. -/
theorem word_ne_key (spelled : type.IsSpelled) : type.word ≠ "KEY" := by
  cases type with
  | custom text => exact absurd rfl (spelled text)
  | _ => simp [word, sql]

theorem not_mem_digits {n : Nat} (other : c.isDigit = false) : c ∉ Nat.toDigits 10 n := fun mem =>
  Bool.false_ne_true (other.symm.trans (Nat.isDigit_of_mem_toDigits (by decide) (by decide) mem))

theorem digits_append_inj {n n' : Nat} (other : c.isDigit = false)
    (same : Nat.toDigits 10 n ++ c :: rest = Nat.toDigits 10 n' ++ c :: rest') :
    n = n' ∧ rest = rest' := by
  obtain ⟨numbers, rests⟩ := (append_cons_inj (not_mem_digits other) (not_mem_digits other)).1 same
  exact ⟨Nat.repr_inj.1 (congrArg String.ofList numbers), rests⟩

theorem bracket_of_mem_head (mem : c ∈ type.measures.head?) : c = '(' := by
  cases type with
  | numeric precision scale => exact (Option.mem_some.1 mem).symm
  | string length =>
      cases length with
      | none => exact absurd mem (Option.not_mem_none c)
      | some length => exact (Option.mem_some.1 mem).symm
  | _ => exact absurd mem (Option.not_mem_none c)

/-- Types that begin with one word are told apart by their measures. -/
theorem measures_append_inj (spelled : type.IsSpelled) (spelled' : type'.IsSpelled)
    (words : type.word = type'.word) (ends : '(' ∉ rest.head?) (ends' : '(' ∉ rest'.head?)
    (same : type.measures ++ rest = type'.measures ++ rest') : type = type' ∧ rest = rest' := by
  cases type with
  | custom text => exact absurd rfl (spelled text)
  | numeric precision scale =>
      cases type' with
      | custom text => exact absurd rfl (spelled' text)
      | numeric precision' scale' =>
          simp only [measures, List.cons_append, List.append_assoc, List.nil_append,
            List.cons.injEq, true_and] at same
          obtain ⟨precisions, second⟩ := digits_append_inj (by decide) same
          obtain ⟨scales, rests⟩ := digits_append_inj (by decide) (List.cons.inj second).2
          exact ⟨by rw [precisions, scales], rests⟩
      | _ => simp [word, sql] at words
  | string length =>
      cases type' with
      | custom text => exact absurd rfl (spelled' text)
      | string length' =>
          cases length with
          | none =>
              cases length' with
              | none => exact ⟨rfl, same⟩
              | some length' => exact absurd (by rw [show rest = _ from same]; rfl) ends
          | some length =>
              cases length' with
              | none => exact absurd (by rw [show rest' = _ from same.symm]; rfl) ends'
              | some length' =>
                  simp only [measures, List.cons_append, List.append_assoc, List.nil_append,
                    List.cons.injEq, true_and] at same
                  obtain ⟨lengths, rests⟩ := digits_append_inj (by decide) same
                  exact ⟨by rw [lengths], rests⟩
      | _ => simp [word, sql] at words
  | _ =>
      cases type' with
      | custom text => exact absurd rfl (spelled' text)
      | _ => first | exact ⟨rfl, same⟩ | simp [word, sql] at words

theorem no_break_measures (type : StorageType) : '\n' ∉ type.measures := by
  have digits : ∀ n : Nat, '\n' ∉ Nat.toDigits 10 n := fun n => not_mem_digits (by decide)
  cases type with
  | numeric precision scale => simp [measures, digits]
  | string length =>
      cases length with
      | none => exact List.not_mem_nil
      | some length => simp [measures, digits]
  | _ => exact List.not_mem_nil

end StorageType

/-! ## Lines of a statement -/

namespace Column

variable {c c' : Column}

/-- A column whose line holds nothing that a declaration can word freely. -/
structure Plain (c : Column) : Prop where
  isIdentifier : Naming.isIdentifier c.name = true
  isSpelled : c.type.IsSpelled
  no_fallback : c.options.fallback = none

/-- What a statement says about a column. -/
structure Shape where
  name : String
  type : StorageType
  nullable : Bool
  unique : Bool
  primaryKey : Bool
  deriving DecidableEq

/-- What a statement says about this column. -/
def shape (c : Column) : Shape where
  name := c.name
  type := c.type
  nullable := c.options.isNullable
  unique := c.options.unique
  primaryKey := c.isPrimaryKey

/-- The words that follow the type of a column. -/
def marks (nullable unique : Bool) : List Char :=
  (if nullable then "" else " NOT NULL").toList ++ (if unique then " UNIQUE" else "").toList

theorem marks_inj : ∀ {nullable unique nullable' unique' : Bool},
    marks nullable unique = marks nullable' unique' → nullable = nullable' ∧ unique = unique' := by
  decide

/-- After the marks of a column, or where it has none, a line ends: no key is declared there. -/
theorem marks_ne_key : ∀ {nullable unique : Bool} (rest : List Char),
    marks nullable unique ≠ " FOREIGN KEY (".toList ++ rest := by
  intro nullable unique rest
  cases nullable <;> cases unique <;> simp [marks]

theorem head_marks {nullable unique : Bool} {x : Char} (mem : x ∈ (marks nullable unique).head?) :
    x = ' ' := by
  revert mem
  cases nullable <;> cases unique <;> simp [marks, eq_comm]

theorem toList_ddl (plain : c.Plain) : c.ddl.toList = c.name.toList ++ ' ' :: (c.type.word.toList
    ++ (c.type.measures ++ marks c.options.isNullable c.options.unique)) := by
  have text : c.ddl = c.name ++ " " ++ c.type.sql ++ (if c.options.isNullable then "" else " NOT NULL")
      ++ (if c.options.unique then " UNIQUE" else "") ++ "" := by
    rw [ddl, plain.no_fallback]
    rfl
  rw [text, String.append_empty]
  simp only [String.toList_append, StorageType.toList_sql, marks, List.append_assoc]
  rfl

/-- The line of a column takes one line. -/
theorem no_break_ddl (plain : c.Plain) : '\n' ∉ c.ddl.toList := by
  have marked : ∀ {nullable unique : Bool}, '\n' ∉ marks nullable unique := by decide
  rw [toList_ddl plain]
  simp [Naming.not_mem_of_isIdentifier plain.isIdentifier (c := '\n') (by decide),
    Naming.not_mem_of_isIdentifier (StorageType.isIdentifier_word plain.isSpelled) (c := '\n') (by decide),
    StorageType.no_break_measures, marked]

/-- Past its name the line of a column goes on with a blank, past its word with a bracket or a blank. -/
theorem ends_word {c : Column} {x : Char} (mem : x ∈ (c.type.measures
    ++ marks c.options.isNullable c.options.unique).head?) : Naming.isIdentifierRest x = false := by
  rw [List.head?_append] at mem
  rcases Option.or_eq_some_iff.1 mem with measured | ⟨-, marked⟩
  · rw [StorageType.bracket_of_mem_head measured]
    rfl
  · rw [head_marks marked]
    rfl

/-- The line of a column says what the column is. -/
theorem ddl_inj (plain : c.Plain) (plain' : c'.Plain) (same : c.ddl = c'.ddl) :
    c.name = c'.name ∧ c.type = c'.type ∧ c.options.isNullable = c'.options.isNullable
      ∧ c.options.unique = c'.options.unique := by
  have lines := congrArg String.toList same
  rw [toList_ddl plain, toList_ddl plain'] at lines
  obtain ⟨names, typed⟩ := Naming.identifier_append_inj plain.isIdentifier plain'.isIdentifier
    (by rintro x ⟨⟩; rfl) (by rintro x ⟨⟩; rfl) lines
  obtain ⟨words, measured⟩ := Naming.identifier_append_inj
    (StorageType.isIdentifier_word plain.isSpelled) (StorageType.isIdentifier_word plain'.isSpelled)
    (fun _ => ends_word) (fun _ => ends_word) (List.cons.inj typed).2
  have bare : ∀ {nullable unique : Bool}, '(' ∉ (marks nullable unique).head? :=
    fun mem => absurd (head_marks mem) (by decide)
  obtain ⟨types, marked⟩ := StorageType.measures_append_inj plain.isSpelled plain'.isSpelled
    words bare bare measured
  exact ⟨names, types, marks_inj marked⟩

/-- What the line of a column says is all that it depends on. -/
theorem ddl_eq_of_shape_eq (plain : c.Plain) (plain' : c'.Plain) (same : c.shape = c'.shape) :
    c.ddl = c'.ddl := by
  rw [shape, shape, Shape.mk.injEq] at same
  obtain ⟨name, type, nullable, unique, -⟩ := same
  rw [← String.toList_inj, toList_ddl plain, toList_ddl plain', name, type, nullable, unique]

end Column

namespace KeyAction

variable {event : String} {rest rest' : List Char}

theorem sql_append_inj {action action' : KeyAction}
    (same : action.sql.toList ++ rest = action'.sql.toList ++ rest') :
    action = action' ∧ rest = rest' := by
  cases action <;> cases action' <;> simp_all [sql]

theorem toList_clause (event : String) (action : KeyAction) : (clause event (some action)).toList
    = " ON ".toList ++ (event.toList ++ ' ' :: action.sql.toList) := by
  change (" ON " ++ event ++ " " ++ action.sql).toList = _
  simp only [String.toList_append, List.append_assoc]
  rfl

/-- A clause ends where its action does, if nothing that looks like it can follow. -/
theorem clause_append_inj {action action' : Option KeyAction}
    (other : ∀ action more, rest ≠ (clause event (some action)).toList ++ more)
    (other' : ∀ action more, rest' ≠ (clause event (some action)).toList ++ more)
    (same : (clause event action).toList ++ rest = (clause event action').toList ++ rest') :
    action = action' ∧ rest = rest' := by
  cases action with
  | none =>
      cases action' with
      | none => exact ⟨rfl, same⟩
      | some action' => exact absurd same (other action' rest')
  | some action =>
      cases action' with
      | none => exact absurd same.symm (other' action rest)
      | some action' =>
          simp only [toList_clause, List.append_assoc, List.cons_append, List.append_cancel_left_eq,
            List.cons.injEq, true_and] at same
          obtain ⟨actions, rests⟩ := sql_append_inj same
          exact ⟨congrArg some actions, rests⟩

/-- The clauses of a key say what the key does. -/
theorem clauses_inj {update update' delete delete' : Option KeyAction}
    (same : (clause "UPDATE" update).toList ++ (clause "DELETE" delete).toList
      = (clause "UPDATE" update').toList ++ (clause "DELETE" delete').toList) :
    update = update' ∧ delete = delete' := by
  have apart : ∀ (delete : Option KeyAction) (update : KeyAction) (more : List Char),
      (clause "DELETE" delete).toList ≠ (clause "UPDATE" (some update)).toList ++ more := by
    intro delete update more
    rw [toList_clause]
    cases delete with
    | none => simp [clause]
    | some delete =>
        rw [toList_clause]
        simp
  have nothing : ∀ (action : KeyAction) (more : List Char),
      [] ≠ (clause "DELETE" (some action)).toList ++ more := by
    intro action more
    rw [toList_clause]
    simp
  obtain ⟨updates, deletes⟩ := clause_append_inj (apart delete) (apart delete') same
  refine ⟨updates, (clause_append_inj nothing nothing ?_).1⟩
  rw [List.append_nil, List.append_nil]
  exact deletes

theorem no_break_clause (event : String) (clear : '\n' ∉ event.toList) (action : Option KeyAction) :
    '\n' ∉ (clause event action).toList := by
  cases action with
  | none => exact List.not_mem_nil
  | some action =>
      rw [toList_clause]
      cases action <;> simp [sql, clear]

end KeyAction

namespace ForeignKey

variable {key key' : ForeignKey}

/-- A foreign key whose line holds nothing that a declaration can word freely. -/
structure Plain (key : ForeignKey) : Prop where
  isIdentifier : Naming.isIdentifier key.name = true
  columns : ∀ column ∈ key.columns, Naming.isIdentifier column = true
  isQualified : Naming.IsQualified key.referredTable
  referredColumns : ∀ column ∈ key.referredColumns, Naming.isIdentifier column = true

/-- What the line of a key says about the columns that it refers to, and all that follows. -/
def target (key : ForeignKey) : List Char :=
  key.referredTable.toList ++ ' ' :: '(' :: ((", ".intercalate key.referredColumns).toList
    ++ ')' :: ((KeyAction.clause "UPDATE" key.onUpdate).toList
      ++ (KeyAction.clause "DELETE" key.onDelete).toList))

theorem toList_ddl (key : ForeignKey) : key.ddl.toList = "CONSTRAINT".toList ++ ' ' ::
    (key.name.toList ++ (" FOREIGN KEY (".toList ++ ((", ".intercalate key.columns).toList
      ++ ')' :: (" REFERENCES ".toList ++ key.target)))) := by
  have text : key.ddl = "CONSTRAINT " ++ key.name ++ " FOREIGN KEY (" ++ ", ".intercalate key.columns
      ++ ") REFERENCES " ++ key.referredTable ++ " (" ++ ", ".intercalate key.referredColumns ++ ")"
      ++ KeyAction.clause "UPDATE" key.onUpdate ++ KeyAction.clause "DELETE" key.onDelete := by
    unfold ddl
    rfl
  rw [text]
  simp only [String.toList_append, target, List.append_assoc]
  rfl

/-- The line of a key takes one line. -/
theorem no_break_ddl (plain : key.Plain) : '\n' ∉ key.ddl.toList := by
  rw [toList_ddl, target]
  simp [-String.toList_intercalate,
    Naming.not_mem_of_isIdentifier plain.isIdentifier (c := '\n') (by decide),
    Naming.not_mem_joined plain.columns (c := '\n') (by decide) (by decide),
    Naming.not_mem_joined plain.referredColumns (c := '\n') (by decide) (by decide),
    plain.isQualified.not_mem (c := '\n') (by decide) (by decide),
    KeyAction.no_break_clause "UPDATE" (by decide),
    KeyAction.no_break_clause "DELETE" (by decide)]

/-- The line of a key says what the key is. -/
theorem ddl_inj (plain : key.Plain) (plain' : key'.Plain) (same : key.ddl = key'.ddl) :
    key = key' := by
  have lines := congrArg String.toList same
  rw [toList_ddl, toList_ddl] at lines
  obtain ⟨names, own⟩ := Naming.identifier_append_inj plain.isIdentifier plain'.isIdentifier
    (by rintro x ⟨⟩; rfl) (by rintro x ⟨⟩; rfl) (List.cons.inj (List.append_cancel_left lines)).2
  obtain ⟨columns, targets⟩ := Naming.joined_inj plain.columns plain'.columns
    (List.append_cancel_left own)
  obtain ⟨tables, referred⟩ := (append_cons_inj (plain.isQualified.not_mem (by decide) (by decide))
    (plain'.isQualified.not_mem (by decide) (by decide))).1 (List.append_cancel_left targets)
  obtain ⟨referredColumns, clauses⟩ := Naming.joined_inj plain.referredColumns plain'.referredColumns
    (List.cons.inj referred).2
  obtain ⟨updates, deletes⟩ := KeyAction.clauses_inj clauses
  cases key
  cases key'
  rw [ForeignKey.mk.injEq]
  exact ⟨names, columns, String.toList_inj.1 tables, referredColumns, updates, deletes⟩

/-- No line is that of a column and that of a key: a type is followed by no word that begins a key. -/
theorem ddl_ne_column {c : Column} (plain : key.Plain) (column : c.Plain) : c.ddl ≠ key.ddl := by
  intro same
  have lines := congrArg String.toList same
  rw [Column.toList_ddl column, toList_ddl] at lines
  obtain ⟨-, typed⟩ := Naming.identifier_append_inj column.isIdentifier rfl
    (by rintro x ⟨⟩; rfl) (by rintro x ⟨⟩; rfl) lines
  obtain ⟨-, measured⟩ := Naming.identifier_append_inj
    (StorageType.isIdentifier_word column.isSpelled) plain.isIdentifier
    (fun _ => Column.ends_word) (by rintro x ⟨⟩; rfl) (List.cons.inj typed).2
  cases measures : c.type.measures with
  | nil => exact Column.marks_ne_key _ (by rwa [measures] at measured)
  | cons x more =>
      have bracket := StorageType.bracket_of_mem_head (by rw [measures]; rfl : x ∈ c.type.measures.head?)
      rw [measures] at measured
      exact absurd (bracket.symm.trans (List.cons.inj measured).1) (by decide)

end ForeignKey

namespace Table

variable {t t' : Table}

/-- A table whose statement holds nothing that a declaration can word freely. -/
structure Plain (t : Table) : Prop where
  schema : ∀ schema ∈ t.schema, Naming.isIdentifier schema = true
  isIdentifier : Naming.isIdentifier t.name = true
  columns : ∀ c ∈ t.columns, c.Plain
  distinct : (t.columns.map (·.name)).Nodup
  constraints : ∀ key ∈ t.constraints, key.Plain

theorem Plain.isQualified (plain : t.Plain) : Naming.IsQualified t.fullName := by
  unfold fullName
  cases schema : t.schema with
  | none => exact .inl plain.isIdentifier
  | some s => exact .inr ⟨s, t.name, plain.schema s schema, plain.isIdentifier, rfl⟩

/-- The names of the columns of the primary key. -/
def keyNames (t : Table) : List String := t.primaryKey.map (·.name)

theorem keyNames_eq (t : Table) :
    t.keyNames = ((t.columns.map (·.shape)).filter (·.primaryKey)).map (·.name) := by
  rw [List.filter_map, List.map_map]
  rfl

theorem Plain.keyNames (plain : t.Plain) : ∀ name ∈ t.keyNames, Naming.isIdentifier name = true := by
  intro name mem
  obtain ⟨c, key, rfl⟩ := List.mem_map.1 mem
  exact (plain.columns c (List.mem_of_mem_filter key)).isIdentifier

theorem primaryKeyDdl_eq (t : Table) : t.primaryKeyDdl
    = if t.keyNames = [] then [] else ["PRIMARY KEY (" ++ ", ".intercalate t.keyNames ++ ")"] := by
  unfold primaryKeyDdl Table.keyNames
  cases t.primaryKey with
  | nil => rfl
  | cons c more => rfl

theorem toList_primaryKeyDdl {line : String} (mem : line ∈ t.primaryKeyDdl) :
    line.toList = "PRIMARY".toList ++ ' ' :: ("KEY".toList
      ++ ' ' :: '(' :: ((", ".intercalate t.keyNames).toList ++ [')'])) := by
  rw [primaryKeyDdl_eq] at mem
  split at mem
  · exact absurd mem List.not_mem_nil
  · rw [List.mem_singleton.1 mem]
    simp only [String.toList_append, List.append_assoc]
    rfl

/-- The line of the primary key, or that there is none, says which columns the key has. -/
theorem primaryKeyDdl_inj (plain : t.Plain) (plain' : t'.Plain)
    (same : t.primaryKeyDdl = t'.primaryKeyDdl) : t.keyNames = t'.keyNames := by
  cases lines : t.primaryKeyDdl with
  | nil =>
      have lines' := same ▸ lines
      rw [primaryKeyDdl_eq, ite_eq_left_iff] at lines lines'
      rw [by_contra fun some => List.cons_ne_nil _ _ (lines some),
        by_contra fun some => List.cons_ne_nil _ _ (lines' some)]
  | cons line more =>
      have mem : line ∈ t.primaryKeyDdl := lines ▸ List.mem_cons_self
      have texts := (toList_primaryKeyDdl mem).symm.trans (toList_primaryKeyDdl (same ▸ mem))
      have lists := (List.cons.inj (List.append_cancel_left texts)).2
      have brackets := (List.cons.inj (List.append_cancel_left lists)).2
      exact (Naming.joined_inj plain.keyNames plain'.keyNames (List.cons.inj brackets).2).1

/-- No line is that of a column and that of a primary key: no type is spelled `KEY`. -/
theorem ne_column_of_mem_primaryKeyDdl {line : String} (mem : line ∈ t.primaryKeyDdl) {c : Column}
    (column : c.Plain) : c.ddl ≠ line := by
  intro same
  have lines := congrArg String.toList same
  rw [Column.toList_ddl column, toList_primaryKeyDdl mem] at lines
  obtain ⟨-, typed⟩ := Naming.identifier_append_inj column.isIdentifier rfl
    (by rintro x ⟨⟩; rfl) (by rintro x ⟨⟩; rfl) lines
  obtain ⟨word, -⟩ := Naming.identifier_append_inj
    (StorageType.isIdentifier_word column.isSpelled) rfl
    (fun _ => Column.ends_word) (by rintro x ⟨⟩; rfl) (List.cons.inj typed).2
  exact StorageType.word_ne_key column.isSpelled word

theorem ne_foreignKey_of_mem_primaryKeyDdl {line : String} (mem : line ∈ t.primaryKeyDdl)
    (key : ForeignKey) : key.ddl ≠ line := by
  intro same
  have lines := congrArg String.toList same
  rw [ForeignKey.toList_ddl, toList_primaryKeyDdl mem] at lines
  exact absurd (List.cons.inj lines).1 (by decide)

/-- Every line of a statement takes one line, and no line is empty. -/
theorem line_of_mem_ddlLines (plain : t.Plain) {line : String} (mem : line ∈ t.ddlLines) :
    line.toList ≠ [] ∧ '\n' ∉ line.toList := by
  rw [ddlLines, List.mem_append, List.mem_append] at mem
  rcases mem with (column | key) | foreign
  · obtain ⟨c, known, rfl⟩ := List.mem_map.1 column
    refine ⟨?_, Column.no_break_ddl (plain.columns c known)⟩
    rw [Column.toList_ddl (plain.columns c known)]
    exact List.append_ne_nil_of_right_ne_nil _ (List.cons_ne_nil _ _)
  · rw [toList_primaryKeyDdl key]
    refine ⟨List.append_ne_nil_of_right_ne_nil _ (List.cons_ne_nil _ _), ?_⟩
    simp [-String.toList_intercalate,
      Naming.not_mem_joined plain.keyNames (c := '\n') (by decide) (by decide)]
  · obtain ⟨key, known, rfl⟩ := List.mem_map.1 foreign
    refine ⟨?_, ForeignKey.no_break_ddl (plain.constraints key known)⟩
    rw [ForeignKey.toList_ddl]
    exact List.append_ne_nil_of_right_ne_nil _ (List.cons_ne_nil _ _)

/-- A line that tells of a column. -/
def IsColumnLine (line : String) : Prop := ∃ c : Column, c.Plain ∧ c.ddl = line

/-- A line that tells of a foreign key. -/
def IsKeyLine (line : String) : Prop := ∃ key : ForeignKey, key.Plain ∧ key.ddl = line

theorem Plain.isColumnLine (plain : t.Plain) :
    ∀ line ∈ t.columns.map (·.ddl), ¬ ¬ IsColumnLine line := by
  intro line mem other
  obtain ⟨c, known, rfl⟩ := List.mem_map.1 mem
  exact other ⟨c, plain.columns c known, rfl⟩

theorem Plain.isKeyLine (plain : t.Plain) : ∀ line ∈ t.constraints.map (·.ddl), IsKeyLine line := by
  intro line mem
  obtain ⟨key, known, rfl⟩ := List.mem_map.1 mem
  exact ⟨key, plain.constraints key known, rfl⟩

theorem not_isKeyLine (t : Table) : ∀ line ∈ t.primaryKeyDdl, ¬ IsKeyLine line := by
  rintro line mem ⟨key, -, same⟩
  exact ne_foreignKey_of_mem_primaryKeyDdl mem key same

/-- No line that stands behind the columns tells of one. -/
theorem Plain.not_isColumnLine (plain : t.Plain) :
    ∀ line ∈ t.primaryKeyDdl ++ t.constraints.map (·.ddl), ¬ IsColumnLine line := by
  rintro line mem ⟨c, column, same⟩
  rcases List.mem_append.1 mem with primary | foreign
  · exact ne_column_of_mem_primaryKeyDdl primary column same
  · obtain ⟨key, known, rfl⟩ := List.mem_map.1 foreign
    exact ForeignKey.ddl_ne_column (plain.constraints key known) column same

/-- The lines of a statement fall apart into those of the columns, of the primary key and of the foreign
keys. -/
theorem ddlLines_inj (plain : t.Plain) (plain' : t'.Plain) (same : t.ddlLines = t'.ddlLines) :
    t.columns.map (·.ddl) = t'.columns.map (·.ddl) ∧ t.primaryKeyDdl = t'.primaryKeyDdl
      ∧ t.constraints.map (·.ddl) = t'.constraints.map (·.ddl) := by
  rw [ddlLines, ddlLines, List.append_assoc, List.append_assoc] at same
  obtain ⟨columns, others⟩ := append_inj_of_stop (¬ IsColumnLine ·) plain.isColumnLine
    plain'.isColumnLine (fun line head => plain.not_isColumnLine line (List.mem_of_mem_head? head))
    (fun line head => plain'.not_isColumnLine line (List.mem_of_mem_head? head)) same
  obtain ⟨primary, foreign⟩ := append_inj_of_stop IsKeyLine (not_isKeyLine t) (not_isKeyLine t')
    (fun line head => plain.isKeyLine line (List.mem_of_mem_head? head))
    (fun line head => plain'.isKeyLine line (List.mem_of_mem_head? head)) others
  exact ⟨columns, primary, foreign⟩

/-- Where names are distinct, the names in the primary key tell whether a column is part of it. -/
theorem Plain.isPrimaryKey_eq (plain : t.Plain) {c : Column} (mem : c ∈ t.columns) :
    c.isPrimaryKey = decide (c.name ∈ t.keyNames) := by
  rw [Bool.eq_iff_iff, decide_eq_true_eq]
  constructor
  · intro key
    exact List.mem_map_of_mem (List.mem_filter.2 ⟨mem, key⟩)
  · intro named
    obtain ⟨other, key, same⟩ := List.mem_map.1 named
    obtain ⟨known, primary⟩ := List.mem_filter.1 key
    rwa [← List.inj_on_of_nodup_map plain.distinct known mem same]

theorem toList_createSql (t : Table) : t.createSql.toList = "CREATE TABLE ".toList
    ++ (t.fullName.toList ++ ' ' :: ("(\n    ".toList
      ++ (([','] ++ '\n' :: "    ".toList).intercalate (t.ddlLines.map String.toList)
        ++ "\n);".toList))) := by
  change ("CREATE TABLE " ++ t.fullName ++ " (\n    " ++ ",\n    ".intercalate t.ddlLines
    ++ "\n);").toList = _
  simp only [String.toList_append, List.append_assoc, String.toList_intercalate]
  rfl

/-- A statement can be cut into the name of its table and its lines. -/
theorem createSql_inj (plain : t.Plain) (plain' : t'.Plain) (same : t.createSql = t'.createSql) :
    t.fullName = t'.fullName ∧ t.ddlLines = t'.ddlLines := by
  have texts := congrArg String.toList same
  rw [toList_createSql, toList_createSql] at texts
  obtain ⟨names, rests⟩ := (append_cons_inj (plain.isQualified.not_mem (by decide) (by decide))
    (plain'.isQualified.not_mem (by decide) (by decide))).1 (List.append_cancel_left texts)
  have clear : ∀ {t : Table}, t.Plain →
      ∀ line ∈ t.ddlLines.map String.toList, line ≠ [] ∧ '\n' ∉ line := by
    intro t plain line mem
    obtain ⟨text, known, rfl⟩ := List.mem_map.1 mem
    exact line_of_mem_ddlLines plain known
  have lines := intercalate_inj "    ".toList (by decide) (clear plain) (clear plain')
    (List.append_cancel_right (List.append_cancel_left rests))
  exact ⟨String.toList_inj.1 names, List.map_injective_iff.2 (fun _ _ => String.toList_inj.1) lines⟩

/-- The lines of a table say all that its columns and keys are, and nothing else. -/
theorem ddlLines_eq_iff (plain : t.Plain) (plain' : t'.Plain) : t.ddlLines = t'.ddlLines ↔
    t.columns.map (·.shape) = t'.columns.map (·.shape) ∧ t.constraints = t'.constraints := by
  constructor
  · intro same
    obtain ⟨columns, primary, foreign⟩ := ddlLines_inj plain plain' same
    have names := primaryKeyDdl_inj plain plain' primary
    have keys := map_eq_of_map_eq (g := id) (fun key mem key' mem' =>
      ForeignKey.ddl_inj (plain.constraints key mem) (plain'.constraints key' mem')) foreign
    rw [List.map_id, List.map_id] at keys
    refine ⟨map_eq_of_map_eq (fun c mem c' mem' line => ?_) columns, keys⟩
    obtain ⟨name, type, nullable, unique⟩ :=
      Column.ddl_inj (plain.columns c mem) (plain'.columns c' mem') line
    rw [Column.shape, Column.shape, Column.Shape.mk.injEq, plain.isPrimaryKey_eq mem,
      plain'.isPrimaryKey_eq mem', names, name]
    exact ⟨rfl, type, nullable, unique, rfl⟩
  · rintro ⟨shapes, keys⟩
    have columns := map_eq_of_map_eq (g := Column.ddl) (fun c mem c' mem' same =>
      Column.ddl_eq_of_shape_eq (plain.columns c mem) (plain'.columns c' mem') same) shapes
    have names := congrArg (fun shapes => (shapes.filter (·.primaryKey)).map (·.name)) shapes
    rw [← keyNames_eq, ← keyNames_eq] at names
    rw [ddlLines, ddlLines, columns, primaryKeyDdl_eq, primaryKeyDdl_eq, names, keys]

/-- A `CREATE TABLE` statement loses nothing: two tables have the same one just if they have the same
full name, columns that are alike in name, type, nullability, uniqueness and part in the primary key,
and the same foreign keys. -/
theorem createSql_eq_iff (plain : t.Plain) (plain' : t'.Plain) : t.createSql = t'.createSql ↔
    t.fullName = t'.fullName ∧ t.columns.map (·.shape) = t'.columns.map (·.shape)
      ∧ t.constraints = t'.constraints := by
  constructor
  · intro same
    obtain ⟨names, lines⟩ := createSql_inj plain plain' same
    exact ⟨names, (ddlLines_eq_iff plain plain').1 lines⟩
  · rintro ⟨names, shapes, keys⟩
    unfold createSql
    rw [names, (ddlLines_eq_iff plain plain').2 ⟨shapes, keys⟩]

/-- A table whose names are the words of a statement. -/
def wordy (nullable : Option Bool) (index : Bool) : Table where
  name := "TABLE"
  schema := some "CREATE"
  columns := [
    ⟨"CONSTRAINT", .integer, { primaryKey := true, nullable := nullable }⟩,
    ⟨"PRIMARY", .numeric 10 2, { unique := true, index := index }⟩]
  constraints := [⟨"INTEGER", ["PRIMARY"], "FOREIGN.KEY", ["UNIQUE"], none, some .setNull⟩]

theorem plain_wordy (nullable : Option Bool) (index : Bool) : (wordy nullable index).Plain where
  schema := by rintro schema ⟨⟩; rfl
  isIdentifier := (by decide : Naming.isIdentifier "TABLE" = true)
  columns := by
    rintro c (_ | ⟨_, _ | ⟨_, ⟨⟩⟩⟩)
    · exact ⟨(by decide : Naming.isIdentifier "CONSTRAINT" = true), (by rintro _ ⟨⟩), rfl⟩
    · exact ⟨(by decide : Naming.isIdentifier "PRIMARY" = true), (by rintro _ ⟨⟩), rfl⟩
  distinct := by
    change ["CONSTRAINT", "PRIMARY"].Nodup
    decide
  constraints := by
    rintro key (_ | ⟨_, ⟨⟩⟩)
    exact ⟨rfl, by decide, .inr ⟨"FOREIGN", "KEY", rfl, rfl, rfl⟩, by decide⟩

/-- Only what a statement does not tell may differ: how it was said that a key takes no nulls, and
whether a column has an index. -/
theorem createSql_eq_iff_wordy : (wordy none false).Plain ∧ (wordy (some false) true).Plain
    ∧ wordy none false ≠ wordy (some false) true
    ∧ (wordy none false).createSql = (wordy (some false) true).createSql := by
  refine ⟨plain_wordy none false, plain_wordy (some false) true, by decide, ?_⟩
  exact (createSql_eq_iff (plain_wordy none false) (plain_wordy (some false) true)).2
    ⟨rfl, by decide, rfl⟩

end Table

end ResourceTables
