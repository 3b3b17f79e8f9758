/-
# `ResourceTables.Action` — steps that change a state, may fail, and leave notes

A step that fails still has a state: what it did before the failure stays done.  The notes are
the messages a step leaves for whoever follows the run; no step reads them.
-/
import ResourceTables.Error

namespace ResourceTables

/-- How much a note matters. -/
inductive Level where
  | debug | info | warn
  deriving DecidableEq

/-- The word for a level. -/
def Level.word : Level → String
  | debug => "DEBUG"
  | info => "INFO"
  | warn => "WARN"

/-- A message left during a run. -/
structure Note where
  level : Level
  text : String
  deriving DecidableEq

/-- How a step ended: its answer or error, the state it left, and the notes it made. -/
structure Outcome (σ α : Type) where
  result : Except Error α
  state : σ
  notes : List Note

/-- A step on a state of type `σ` that answers with an `α`. -/
def Action (σ α : Type) : Type := σ → Outcome σ α

namespace Action

variable {σ τ α β : Type}

/-- The step that changes nothing and answers `a`. -/
protected def pure (a : α) : Action σ α := fun s => ⟨.ok a, s, []⟩

/-- One step after another; a failure ends the run. -/
protected def bind (x : Action σ α) (f : α → Action σ β) : Action σ β := fun s =>
  match x s with
  | ⟨.ok a, s', notes⟩ =>
    let after := f a s'
    ⟨after.result, after.state, notes ++ after.notes⟩
  | ⟨.error e, s', notes⟩ => ⟨.error e, s', notes⟩

instance : Monad (Action σ) where
  pure := Action.pure
  bind := Action.bind

/-- The step that fails and changes nothing. -/
def fail (e : Error) : Action σ α := fun s => ⟨.error e, s, []⟩

/-- The step that leaves a note. -/
def note (level : Level) (text : String) : Action σ Unit := fun s => ⟨.ok (), s, [⟨level, text⟩]⟩

/-- The step that answers with the state. -/
def read : Action σ σ := fun s => ⟨.ok s, s, []⟩

/-- The step that answers with a part of the state. -/
def reads (f : σ → α) : Action σ α := fun s => ⟨.ok (f s), s, []⟩

/-- The step that changes the state. -/
def change (f : σ → σ) : Action σ Unit := fun s => ⟨.ok (), f s, []⟩

/-- The step that gives a ready answer or error. -/
def ofExcept : Except Error α → Action σ α
  | .ok a => Action.pure a
  | .error e => fail e

/-- A step on a part of the state, done on the whole. -/
def zoom (part : σ → τ) (put : σ → τ → σ) (x : Action τ α) : Action σ α := fun s =>
  let inner := x (part s)
  ⟨inner.result, put s inner.state, inner.notes⟩

/-- The step that runs `cleanup` if `x` fails, and fails with the same error. -/
def onFailure (x : Action σ α) (cleanup : Error → Action σ Unit) : Action σ α := fun s =>
  match x s with
  | ⟨.ok a, s', notes⟩ => ⟨.ok a, s', notes⟩
  | ⟨.error e, s', notes⟩ =>
    let after := cleanup e s'
    ⟨.error e, after.state, notes ++ after.notes⟩

/-- Does a step for every element of a list in turn, with a state of type `τ` that goes along.
After a failure the elements and the state stay as they were left. -/
def each (step : Action (α × τ) Unit) : List α → τ → Outcome (List α × τ) Unit
  | [], t => ⟨.ok (), ([], t), []⟩
  | a :: rest, t =>
    match step (a, t) with
    | ⟨.ok _, (a', t'), notes⟩ =>
      let after := each step rest t'
      ⟨after.result, (a' :: after.state.1, after.state.2), notes ++ after.notes⟩
    | ⟨.error e, (a', t'), notes⟩ => ⟨.error e, (a' :: rest, t'), notes⟩

/-! ## What a step does to the state -/

@[simp] theorem pure_apply (a : α) (s : σ) : (pure a : Action σ α) s = ⟨.ok a, s, []⟩ := rfl

theorem bind_apply_ok {x : Action σ α} {f : α → Action σ β} {s s' : σ} {a : α} {notes : List Note}
    (h : x s = ⟨.ok a, s', notes⟩) :
    (x >>= f) s = ⟨(f a s').result, (f a s').state, notes ++ (f a s').notes⟩ := by
  simp only [bind, Action.bind, h]

theorem bind_apply_error {x : Action σ α} {f : α → Action σ β} {s s' : σ} {e : Error}
    {notes : List Note} (h : x s = ⟨.error e, s', notes⟩) :
    (x >>= f) s = ⟨.error e, s', notes⟩ := by
  simp only [bind, Action.bind, h]

end Action

end ResourceTables
