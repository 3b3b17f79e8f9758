/-
# `ResourceTables.Proofs.Actions` — how a step ends, read off its parts

A step answers or fails, and leaves a state either way.  `Answers` and `Fails` say which, without
the notes; every way of putting steps together has one law for each of them, so that no later
proof has to open a step.

`Keeps` is the third question: what holds before a step and still holds after it, however the
step ends.  `Notes` asks for the notes themselves.
-/
import ResourceTables.Action
import Mathlib.Data.List.Forall2

namespace ResourceTables.Action

variable {σ τ α β : Type}

/-- Taken in `s`, the step answers `a` and leaves `s'`. -/
def Answers (x : Action σ α) (s : σ) (a : α) (s' : σ) : Prop :=
  (x s).result = .ok a ∧ (x s).state = s'

/-- Taken in `s`, the step fails with `e` and leaves `s'`. -/
def Fails (x : Action σ α) (s : σ) (e : Error) (s' : σ) : Prop :=
  (x s).result = .error e ∧ (x s).state = s'

/-- Whatever way the step ends, it leaves `I` true where it was true. -/
def Keeps (I : σ → Prop) (x : Action σ α) : Prop := ∀ s, I s → I (x s).state

theorem answers_or_fails (x : Action σ α) (s : σ) :
    (∃ a s', x.Answers s a s') ∨ ∃ e s', x.Fails s e s' := by
  cases h : (x s).result with
  | ok a => exact .inl ⟨a, _, h, rfl⟩
  | error e => exact .inr ⟨e, _, h, rfl⟩

theorem exists_answers_of_isOk {x : Action σ α} {s : σ} (h : (x s).result.isOk = true) :
    ∃ a s', x.Answers s a s' := by
  rcases answers_or_fails x s with answers | ⟨e, s', fails⟩
  · exact answers
  · rw [fails.1] at h
    cases h

theorem exists_answers_of_any {x : Action σ α} {s : σ} {p : α → Bool}
    (h : (x s).result.toOption.any p = true) : ∃ a s', x.Answers s a s' ∧ p a = true := by
  rcases answers_or_fails x s with ⟨a, s', answers⟩ | ⟨e, s', fails⟩
  · rw [answers.1] at h
    exact ⟨a, s', answers, h⟩
  · rw [fails.1] at h
    cases h

theorem exists_fails_of_isOk {x : Action σ α} {s : σ} (h : (x s).result.isOk = false) :
    ∃ e s', x.Fails s e s' := by
  rcases answers_or_fails x s with ⟨a, s', answers⟩ | fails
  · rw [answers.1] at h
    cases h
  · exact fails

/-- Whether an action stops with an error. -/
def stopsWith (x : Action σ α) (s : σ) (e : Error) : Bool :=
  match (x s).result with
  | .ok _ => false
  | .error e' => e' == e

theorem exists_fails_of_stopsWith {x : Action σ α} {s : σ} {e : Error}
    (h : x.stopsWith s e = true) : ∃ s', x.Fails s e s' := by
  rcases answers_or_fails x s with ⟨a, s', answers⟩ | ⟨e', s', fails⟩
  · rw [stopsWith, answers.1] at h
    cases h
  · rw [stopsWith, fails.1] at h
    exact ⟨s', eq_of_beq h ▸ fails⟩

theorem toOption_eq_some_iff {r : Except Error α} {a : α} : r.toOption = some a ↔ r = .ok a := by
  cases r <;> simp [Except.toOption]

theorem Answers.unique {x : Action σ α} {s : σ} {a b : α} {s₁ s₂ : σ} (h₁ : x.Answers s a s₁)
    (h₂ : x.Answers s b s₂) : a = b ∧ s₁ = s₂ :=
  ⟨Except.ok.inj (h₁.1.symm.trans h₂.1), h₁.2.symm.trans h₂.2⟩

theorem Answers.not_fails {x : Action σ α} {s s₁ s₂ : σ} {a : α} {e : Error}
    (h : x.Answers s a s₁) : ¬ x.Fails s e s₂ := by
  intro f
  have : (Except.ok a : Except Error α) = .error e := h.1.symm.trans f.1
  cases this

theorem Keeps.of_answers {I : σ → Prop} {x : Action σ α} (k : Keeps I x) {s s' : σ} {a : α}
    (h : x.Answers s a s') (hs : I s) : I s' :=
  h.2 ▸ k s hs

theorem Keeps.of_fails {I : σ → Prop} {x : Action σ α} (k : Keeps I x) {s s' : σ} {e : Error}
    (h : x.Fails s e s') (hs : I s) : I s' :=
  h.2 ▸ k s hs

/-- What a step keeps can be checked ending by ending. -/
theorem keeps_of_ends {I : σ → Prop} {x : Action σ α}
    (ha : ∀ s a s', I s → x.Answers s a s' → I s')
    (hf : ∀ s e s', I s → x.Fails s e s' → I s') : Keeps I x := by
  intro s hs
  cases h : (x s).result with
  | ok a => exact ha s a _ hs ⟨h, rfl⟩
  | error e => exact hf s e _ hs ⟨h, rfl⟩

/-! ## Single steps -/

@[simp] theorem answers_pure {a b : α} {s s' : σ} :
    (pure a : Action σ α).Answers s b s' ↔ a = b ∧ s = s' := by
  simp [Answers]

@[simp] theorem fails_pure {a : α} {e : Error} {s s' : σ} :
    ¬ (pure a : Action σ α).Fails s e s' := by
  simp [Fails]

@[simp] theorem answers_fail {e : Error} {a : α} {s s' : σ} :
    ¬ (fail e : Action σ α).Answers s a s' := by
  simp [Answers, fail]

@[simp] theorem fails_fail {e e' : Error} {s s' : σ} :
    (fail e : Action σ α).Fails s e' s' ↔ e = e' ∧ s = s' := by
  simp [Fails, fail]

@[simp] theorem answers_note {level : Level} {text : String} {u : Unit} {s s' : σ} :
    (note level text : Action σ Unit).Answers s u s' ↔ s = s' := by
  simp [Answers, note]

@[simp] theorem fails_note {level : Level} {text : String} {e : Error} {s s' : σ} :
    ¬ (note level text : Action σ Unit).Fails s e s' := by
  simp [Fails, note]

@[simp] theorem answers_read {s t s' : σ} : (read : Action σ σ).Answers s t s' ↔ s = t ∧ s = s' := by
  simp [Answers, read]

@[simp] theorem fails_read {e : Error} {s s' : σ} : ¬ (read : Action σ σ).Fails s e s' := by
  simp [Fails, read]

@[simp] theorem answers_reads {f : σ → α} {a : α} {s s' : σ} :
    (reads f).Answers s a s' ↔ f s = a ∧ s = s' := by
  simp [Answers, reads]

@[simp] theorem fails_reads {f : σ → α} {e : Error} {s s' : σ} : ¬ (reads f).Fails s e s' := by
  simp [Fails, reads]

@[simp] theorem answers_change {f : σ → σ} {u : Unit} {s s' : σ} :
    (change f).Answers s u s' ↔ f s = s' := by
  simp [Answers, change]

@[simp] theorem fails_change {f : σ → σ} {e : Error} {s s' : σ} : ¬ (change f).Fails s e s' := by
  simp [Fails, change]

@[simp] theorem answers_ofExcept {r : Except Error α} {a : α} {s s' : σ} :
    (ofExcept r : Action σ α).Answers s a s' ↔ r = .ok a ∧ s = s' := by
  cases r <;> simp [Answers, ofExcept, fail, Action.pure]

@[simp] theorem fails_ofExcept {r : Except Error α} {e : Error} {s s' : σ} :
    (ofExcept r : Action σ α).Fails s e s' ↔ r = .error e ∧ s = s' := by
  cases r <;> simp [Fails, ofExcept, fail, Action.pure]

/-! ## Steps put together -/

@[simp] theorem answers_bind {x : Action σ α} {f : α → Action σ β} {s s'' : σ} {b : β} :
    (x >>= f).Answers s b s'' ↔ ∃ a s', x.Answers s a s' ∧ (f a).Answers s' b s'' := by
  rcases h : x s with ⟨_ | a, s', notes⟩
  · simp [Answers, bind_apply_error h, h]
  · simp only [Answers, bind_apply_ok h, h, Except.ok.injEq]
    constructor
    · exact fun done => ⟨a, s', ⟨rfl, rfl⟩, done⟩
    · rintro ⟨_, _, ⟨rfl, rfl⟩, done⟩
      exact done

@[simp] theorem fails_bind {x : Action σ α} {f : α → Action σ β} {s s'' : σ} {e : Error} :
    (x >>= f).Fails s e s'' ↔
      x.Fails s e s'' ∨ ∃ a s', x.Answers s a s' ∧ (f a).Fails s' e s'' := by
  rcases h : x s with ⟨_ | a, s', notes⟩
  · simp [Answers, Fails, bind_apply_error h, h]
  · simp only [Answers, Fails, bind_apply_ok h, h, Except.ok.injEq, reduceCtorEq, false_and,
      false_or]
    constructor
    · exact fun done => ⟨a, s', ⟨rfl, rfl⟩, done⟩
    · rintro ⟨_, _, ⟨rfl, rfl⟩, done⟩
      exact done

/-! A step that only looks at the state can be left out in front of another. -/

theorem read_bind (f : σ → Action σ β) (s : σ) : (read >>= f) s = f s s := rfl

theorem reads_bind (g : σ → α) (f : α → Action σ β) (s : σ) : (reads g >>= f) s = f (g s) s := rfl

theorem change_bind (g : σ → σ) (f : Unit → Action σ β) (s : σ) :
    (change g >>= f) s = f () (g s) := rfl

@[simp] theorem answers_read_bind {f : σ → Action σ β} {s s' : σ} {b : β} :
    (read >>= f).Answers s b s' ↔ (f s).Answers s b s' := Iff.rfl

@[simp] theorem fails_read_bind {f : σ → Action σ β} {s s' : σ} {e : Error} :
    (read >>= f).Fails s e s' ↔ (f s).Fails s e s' := Iff.rfl

@[simp] theorem answers_reads_bind {g : σ → α} {f : α → Action σ β} {s s' : σ} {b : β} :
    (reads g >>= f).Answers s b s' ↔ (f (g s)).Answers s b s' := Iff.rfl

@[simp] theorem fails_reads_bind {g : σ → α} {f : α → Action σ β} {s s' : σ} {e : Error} :
    (reads g >>= f).Fails s e s' ↔ (f (g s)).Fails s e s' := Iff.rfl

@[simp] theorem answers_change_bind {g : σ → σ} {f : Unit → Action σ β} {s s' : σ} {b : β} :
    (change g >>= f).Answers s b s' ↔ (f ()).Answers (g s) b s' := Iff.rfl

@[simp] theorem fails_change_bind {g : σ → σ} {f : Unit → Action σ β} {s s' : σ} {e : Error} :
    (change g >>= f).Fails s e s' ↔ (f ()).Fails (g s) e s' := Iff.rfl

@[simp] theorem answers_note_bind {level : Level} {text : String} {f : Unit → Action σ β}
    {s s' : σ} {b : β} : (note level text >>= f).Answers s b s' ↔ (f ()).Answers s b s' := Iff.rfl

@[simp] theorem fails_note_bind {level : Level} {text : String} {f : Unit → Action σ β}
    {s s' : σ} {e : Error} : (note level text >>= f).Fails s e s' ↔ (f ()).Fails s e s' := Iff.rfl

@[simp] theorem answers_zoom {part : σ → τ} {put : σ → τ → σ} {x : Action τ α} {s s' : σ} {a : α} :
    (zoom part put x).Answers s a s' ↔ ∃ t, x.Answers (part s) a t ∧ put s t = s' := by
  simp [Answers, zoom, and_assoc]

@[simp] theorem fails_zoom {part : σ → τ} {put : σ → τ → σ} {x : Action τ α} {s s' : σ} {e : Error} :
    (zoom part put x).Fails s e s' ↔ ∃ t, x.Fails (part s) e t ∧ put s t = s' := by
  simp [Fails, zoom, and_assoc]

@[simp] theorem answers_onFailure {x : Action σ α} {cleanup : Error → Action σ Unit} {s s' : σ}
    {a : α} : (x.onFailure cleanup).Answers s a s' ↔ x.Answers s a s' := by
  unfold Answers onFailure
  rcases h : x s with ⟨_ | _, _, _⟩ <;> simp

@[simp] theorem fails_onFailure {x : Action σ α} {cleanup : Error → Action σ Unit} {s s' : σ}
    {e : Error} :
    (x.onFailure cleanup).Fails s e s' ↔ ∃ t, x.Fails s e t ∧ (cleanup e t).state = s' := by
  unfold Fails onFailure
  rcases h : x s with ⟨_ | _, _, _⟩
  · simp only [Except.error.injEq]
    constructor
    · rintro ⟨rfl, rfl⟩
      exact ⟨_, ⟨rfl, rfl⟩, rfl⟩
    · rintro ⟨_, ⟨rfl, rfl⟩, rfl⟩
      exact ⟨rfl, rfl⟩
  · simp

/-! ## Over a list -/

section Lists

variable {f : α → Action σ PUnit} {a : α} {rest : List α} {s s' : σ} {u : PUnit} {e : Error}

@[simp] theorem answers_forM_nil : (forM ([] : List α) f).Answers s u s' ↔ s = s' := by
  simp

@[simp] theorem answers_forM_cons :
    (forM (a :: rest) f).Answers s u s' ↔
      ∃ t, (f a).Answers s ⟨⟩ t ∧ (forM rest f).Answers t u s' := by
  rw [List.forM_cons, answers_bind]
  exact ⟨fun ⟨_, t, one, others⟩ => ⟨t, one, others⟩, fun ⟨t, one, others⟩ => ⟨_, t, one, others⟩⟩

@[simp] theorem fails_forM_nil : ¬ (forM ([] : List α) f).Fails s e s' := by
  simp

@[simp] theorem fails_forM_cons :
    (forM (a :: rest) f).Fails s e s' ↔
      (f a).Fails s e s' ∨ ∃ t, (f a).Answers s ⟨⟩ t ∧ (forM rest f).Fails t e s' := by
  rw [List.forM_cons, fails_bind]
  exact or_congr_right
    ⟨fun ⟨_, t, one, others⟩ => ⟨t, one, others⟩, fun ⟨t, one, others⟩ => ⟨_, t, one, others⟩⟩

theorem answers_forM_append {xs ys : List α} :
    (forM (xs ++ ys) f).Answers s u s' ↔
      ∃ t, (forM xs f).Answers s ⟨⟩ t ∧ (forM ys f).Answers t u s' := by
  induction xs generalizing s with
  | nil => simp
  | cons a rest ih =>
      simp only [List.cons_append, answers_forM_cons, ih]
      constructor
      · rintro ⟨t, one, t', others, last⟩
        exact ⟨t', ⟨t, one, others⟩, last⟩
      · rintro ⟨t', ⟨t, one, others⟩, last⟩
        exact ⟨t, one, t', others, last⟩

/-- Steps that change nothing one by one change nothing together. -/
theorem answers_forM_same {xs : List α} (same : ∀ b ∈ xs, (f b).Answers s ⟨⟩ s) :
    (forM xs f).Answers s ⟨⟩ s := by
  induction xs with
  | nil => exact answers_forM_nil.2 rfl
  | cons b rest ih =>
      refine answers_forM_cons.2 ⟨s, same b List.mem_cons_self, ih fun b' mem => ?_⟩
      exact same b' (List.mem_cons_of_mem _ mem)

/-- Behind such steps the first that fails decides. -/
theorem fails_forM_same {xs : List α} (same : ∀ b ∈ xs, (f b).Answers s ⟨⟩ s)
    (here : (f a).Fails s e s) :
    (forM (xs ++ a :: rest) f).Fails s e s := by
  induction xs with
  | nil => exact fails_forM_cons.2 (.inl here)
  | cons b others ih =>
      refine fails_forM_cons.2 (.inr ⟨s, same b List.mem_cons_self, ih fun b' mem => ?_⟩)
      exact same b' (List.mem_cons_of_mem _ mem)

/-- What holds of the elements done so far and the state, from one element to the next, holds of
the whole list in the end. -/
theorem Answers.forM_induction {I : List α → σ → Prop} {xs : List α}
    (h : (forM xs f).Answers s u s') (start : I [] s)
    (next : ∀ done a rest t t', xs = done ++ a :: rest → I done t → (f a).Answers t ⟨⟩ t' →
      I (done ++ [a]) t') : I xs s' := by
  suffices ∀ rest done t, xs = done ++ rest → I done t → (forM rest f).Answers t u s' → I xs s' from
    this xs [] s rfl start h
  intro rest
  induction rest with
  | nil =>
      intro done t split keep ends
      rw [answers_forM_nil] at ends
      rw [split, List.append_nil, ← ends]
      exact keep
  | cons a rest ih =>
      intro done t split keep ends
      obtain ⟨t', one, others⟩ := answers_forM_cons.1 ends
      exact ih (done ++ [a]) t' (by simp [split]) (next done a rest t t' split keep one) others

/-- A list of steps fails at one of them, and up to there it answers. -/
theorem Fails.forM_induction {I : List α → σ → Prop} {xs : List α} (h : (forM xs f).Fails s e s')
    (start : I [] s)
    (next : ∀ done a rest t t', xs = done ++ a :: rest → I done t → (f a).Answers t ⟨⟩ t' →
      I (done ++ [a]) t') :
    ∃ done a rest t, xs = done ++ a :: rest ∧ I done t ∧ (f a).Fails t e s' := by
  suffices ∀ rest done t, xs = done ++ rest → I done t → (forM rest f).Fails t e s' →
      ∃ done a rest t, xs = done ++ a :: rest ∧ I done t ∧ (f a).Fails t e s' from
    this xs [] s rfl start h
  intro rest
  induction rest with
  | nil =>
      intro done t _ _ ends
      exact absurd ends fails_forM_nil
  | cons a rest ih =>
      intro done t split keep ends
      rcases fails_forM_cons.1 ends with here | ⟨t', one, others⟩
      · exact ⟨done, a, rest, t, split, keep, here⟩
      · exact ih (done ++ [a]) t' (by simp [split]) (next done a rest t t' split keep one) others

/-- A list of steps answers if each of them does wherever those before it lead. -/
theorem exists_answers_forM {I : List α → σ → Prop} {xs : List α} (start : I [] s)
    (next : ∀ done a rest t, xs = done ++ a :: rest → I done t →
      ∃ t', (f a).Answers t ⟨⟩ t' ∧ I (done ++ [a]) t') :
    ∃ s', (forM xs f).Answers s ⟨⟩ s' ∧ I xs s' := by
  suffices ∀ rest done t, xs = done ++ rest → I done t →
      ∃ s', (forM rest f).Answers t ⟨⟩ s' ∧ I xs s' from this xs [] s rfl start
  intro rest
  induction rest with
  | nil =>
      intro done t split keep
      refine ⟨t, answers_forM_nil.2 rfl, ?_⟩
      rw [split, List.append_nil]
      exact keep
  | cons a rest ih =>
      intro done t split keep
      obtain ⟨t', one, keep'⟩ := next done a rest t split keep
      obtain ⟨s', others, last⟩ := ih (done ++ [a]) t' (by simp [split]) keep'
      exact ⟨s', answers_forM_cons.2 ⟨t', one, others⟩, last⟩

end Lists

/-! ## Over a list whose elements change -/

section Each

/-- A step for every element of a list, as one step on the list. -/
def onEach (step : Action (α × τ) Unit) : Action (List α × τ) Unit := fun s => each step s.1 s.2

variable {step : Action (α × τ) Unit} {a : α} {rest : List α} {t : τ} {s' : List α × τ} {u : Unit}
  {e : Error}

@[simp] theorem answers_onEach_nil : (onEach step).Answers ([], t) u s' ↔ ([], t) = s' := by
  simp [Answers, onEach, each]

@[simp] theorem answers_onEach_cons :
    (onEach step).Answers (a :: rest, t) u s' ↔
      ∃ one others, step.Answers (a, t) () one ∧ (onEach step).Answers (rest, one.2) u others ∧
        (one.1 :: others.1, others.2) = s' := by
  rcases h : step (a, t) with ⟨_ | _, s, notes⟩
  · simp [Answers, onEach, each, h]
  · simp only [Answers, onEach, each, h, true_and]
    constructor
    · rintro ⟨ends, rfl⟩
      exact ⟨s, _, rfl, ⟨ends, rfl⟩, rfl⟩
    · rintro ⟨_, _, rfl, ⟨ends, rfl⟩, rfl⟩
      exact ⟨ends, rfl⟩

@[simp] theorem fails_onEach_nil : ¬ (onEach step).Fails ([], t) e s' := by
  simp [Fails, onEach, each]

@[simp] theorem fails_onEach_cons :
    (onEach step).Fails (a :: rest, t) e s' ↔
      (∃ one, step.Fails (a, t) e one ∧ (one.1 :: rest, one.2) = s') ∨
      ∃ one others, step.Answers (a, t) () one ∧ (onEach step).Fails (rest, one.2) e others ∧
        (one.1 :: others.1, others.2) = s' := by
  rcases h : step (a, t) with ⟨_ | _, s, notes⟩
  · simp only [Answers, Fails, onEach, each, h, Except.error.injEq, reduceCtorEq, false_and]
    constructor
    · rintro ⟨rfl, rfl⟩
      exact .inl ⟨s, ⟨rfl, rfl⟩, rfl⟩
    · rintro (⟨_, ⟨rfl, rfl⟩, rfl⟩ | ⟨_, _, impossible⟩)
      · exact ⟨rfl, rfl⟩
      · exact impossible.elim
  · simp only [Answers, Fails, onEach, each, h, reduceCtorEq, false_and, true_and]
    constructor
    · rintro ⟨ends, rfl⟩
      exact .inr ⟨s, _, rfl, ⟨ends, rfl⟩, rfl⟩
    · rintro (⟨_, impossible⟩ | ⟨_, _, rfl, ⟨ends, rfl⟩, rfl⟩)
      · exact impossible.elim
      · exact ⟨ends, rfl⟩

/-- What holds of the elements done so far and the state that goes along, from one element to the
next, holds of the whole list in the end. -/
theorem Answers.onEach_induction {I : List α → τ → Prop} {xs : List α}
    (h : (onEach step).Answers (xs, t) u s') (start : I [] t)
    (next : ∀ done a rest t a' t', xs = done ++ a :: rest → I done t →
      step.Answers (a, t) () (a', t') → I (done ++ [a]) t') : I xs s'.2 := by
  suffices ∀ rest done t s', xs = done ++ rest → I done t →
      (onEach step).Answers (rest, t) u s' → I xs s'.2 from this xs [] t s' rfl start h
  intro rest
  induction rest with
  | nil =>
      intro done t s' split keep ends
      rw [answers_onEach_nil] at ends
      rw [split, List.append_nil, ← ends]
      exact keep
  | cons a rest ih =>
      intro done t s' split keep ends
      obtain ⟨⟨a', t'⟩, others, one, more, rfl⟩ := answers_onEach_cons.1 ends
      exact ih (done ++ [a]) t' others (by simp [split]) (next done a rest t a' t' split keep one)
        more

/-- A step for every element fails at one of them, and up to there it answers. -/
theorem Fails.onEach_induction {I : List α → τ → Prop} {xs : List α}
    (h : (onEach step).Fails (xs, t) e s') (start : I [] t)
    (next : ∀ done a rest t a' t', xs = done ++ a :: rest → I done t →
      step.Answers (a, t) () (a', t') → I (done ++ [a]) t') :
    ∃ done a rest t a', xs = done ++ a :: rest ∧ I done t ∧ step.Fails (a, t) e (a', s'.2) := by
  suffices ∀ rest done t s', xs = done ++ rest → I done t → (onEach step).Fails (rest, t) e s' →
      ∃ done a rest t a', xs = done ++ a :: rest ∧ I done t ∧ step.Fails (a, t) e (a', s'.2) from
    this xs [] t s' rfl start h
  intro rest
  induction rest with
  | nil =>
      intro done t s' _ _ ends
      exact absurd ends fails_onEach_nil
  | cons a rest ih =>
      intro done t s' split keep ends
      rcases fails_onEach_cons.1 ends with ⟨one, here, rfl⟩ | ⟨⟨a', t'⟩, others, one, more, rfl⟩
      · exact ⟨done, a, rest, t, one.1, split, keep, here⟩
      · exact ih (done ++ [a]) t' others (by simp [split])
          (next done a rest t a' t' split keep one) more

/-- The elements change only as the step changes them, also when it fails on one of them. -/
theorem forall₂_each {R : α → α → Prop} (refl : ∀ a, R a a)
    (h : ∀ a t, R a (step (a, t)).state.1) (xs : List α) (t : τ) :
    List.Forall₂ R xs (each step xs t).state.1 := by
  induction xs generalizing t with
  | nil => exact .nil
  | cons a rest ih =>
      have one := h a t
      rcases ends : step (a, t) with ⟨_ | _, s, notes⟩
      · rw [ends] at one
        simp only [each, ends]
        refine .cons one ?_
        clear ih
        induction rest with
        | nil => exact .nil
        | cons b rest ih => exact .cons (refl b) ih
      · rw [ends] at one
        simp only [each, ends]
        exact .cons one (ih s.2)

end Each

/-! ## What steps keep -/

section Keeping

variable {I : σ → Prop}

theorem keeps_pure (a : α) : Keeps I (pure a : Action σ α) := fun _ hs => hs

theorem keeps_fail (e : Error) : Keeps I (fail e : Action σ α) := fun _ hs => hs

theorem keeps_note (level : Level) (text : String) : Keeps I (note level text) := fun _ hs => hs

theorem keeps_read : Keeps I (read : Action σ σ) := fun _ hs => hs

theorem keeps_change {f : σ → σ} (h : ∀ s, I s → I (f s)) : Keeps I (change f) := h

theorem keeps_ofExcept (r : Except Error α) : Keeps I (ofExcept r : Action σ α) := by
  cases r <;> exact fun _ hs => hs

theorem Keeps.bind {x : Action σ α} {f : α → Action σ β} (hx : Keeps I x)
    (hf : ∀ a, Keeps I (f a)) : Keeps I (x >>= f) := by
  refine keeps_of_ends ?_ ?_
  · intro s b s'' hs h
    obtain ⟨a, s', one, other⟩ := answers_bind.1 h
    exact (hf a).of_answers other (hx.of_answers one hs)
  · intro s e s'' hs h
    rcases fails_bind.1 h with one | ⟨a, s', one, other⟩
    · exact hx.of_fails one hs
    · exact (hf a).of_fails other (hx.of_answers one hs)

/-- What comes after a result is only asked for that result. -/
theorem keeps_ofExcept_bind {r : Except Error α} {f : α → Action σ β}
    (h : ∀ a, r = .ok a → Keeps I (f a)) : Keeps I (ofExcept r >>= f) := by
  refine keeps_of_ends ?_ ?_
  · intro s b s' hs ends
    obtain ⟨a, _, one, other⟩ := answers_bind.1 ends
    obtain ⟨ok, rfl⟩ := answers_ofExcept.1 one
    exact (h a ok).of_answers other hs
  · intro s e s' hs ends
    rcases fails_bind.1 ends with one | ⟨a, _, one, other⟩
    · exact (fails_ofExcept.1 one).2 ▸ hs
    · obtain ⟨ok, rfl⟩ := answers_ofExcept.1 one
      exact (h a ok).of_fails other hs

theorem keeps_zoom {part : σ → τ} {put : σ → τ → σ} {x : Action τ α}
    (h : ∀ s, I s → I (put s (x (part s)).state)) : Keeps I (zoom part put x) := h

theorem Keeps.onFailure {x : Action σ α} {cleanup : Error → Action σ Unit} (hx : Keeps I x)
    (hc : ∀ e, Keeps I (cleanup e)) : Keeps I (x.onFailure cleanup) := by
  refine keeps_of_ends ?_ ?_
  · intro s a s' hs h
    exact hx.of_answers (answers_onFailure.1 h) hs
  · intro s e s' hs h
    obtain ⟨t, one, rfl⟩ := fails_onFailure.1 h
    exact hc e t (hx.of_fails one hs)

theorem keeps_forM {f : α → Action σ PUnit} {xs : List α} (h : ∀ a ∈ xs, Keeps I (f a)) :
    Keeps I (forM xs f) := by
  induction xs with
  | nil => exact keeps_pure _
  | cons a rest ih =>
      rw [List.forM_cons]
      exact (h a List.mem_cons_self).bind fun _ => ih fun b hb => h b (List.mem_cons_of_mem _ hb)

end Keeping

/-! ## The notes that steps leave -/

section Noting

/-- Taken in `s`, the step leaves the note. -/
def Notes (x : Action σ α) (s : σ) (n : Note) : Prop := n ∈ (x s).notes

variable {s : σ} {n : Note}

@[simp] theorem notes_pure {a : α} : ¬ (pure a : Action σ α).Notes s n := by
  simp [Notes]

@[simp] theorem notes_fail {e : Error} : ¬ (fail e : Action σ α).Notes s n := by
  simp [Notes, fail]

@[simp] theorem notes_note {level : Level} {text : String} :
    (note level text : Action σ Unit).Notes s n ↔ n = ⟨level, text⟩ := by
  simp [Notes, note]

@[simp] theorem notes_change {f : σ → σ} : ¬ (change f).Notes s n := by
  simp [Notes, change]

@[simp] theorem notes_ofExcept {r : Except Error α} : ¬ (ofExcept r : Action σ α).Notes s n := by
  cases r <;> simp [Notes, ofExcept, fail, Action.pure]

@[simp] theorem notes_read_bind {f : σ → Action σ β} :
    (read >>= f).Notes s n ↔ (f s).Notes s n := Iff.rfl

@[simp] theorem notes_bind {x : Action σ α} {f : α → Action σ β} :
    (x >>= f).Notes s n ↔ x.Notes s n ∨ ∃ a s', x.Answers s a s' ∧ (f a).Notes s' n := by
  rcases h : x s with ⟨_ | a, s', notes⟩
  · simp [Notes, Answers, bind_apply_error h, h]
  · simp only [Notes, Answers, bind_apply_ok h, h, List.mem_append, Except.ok.injEq]
    refine or_congr_right ⟨fun left => ⟨a, s', ⟨rfl, rfl⟩, left⟩, ?_⟩
    rintro ⟨_, _, ⟨rfl, rfl⟩, left⟩
    exact left

@[simp] theorem notes_zoom {part : σ → τ} {put : σ → τ → σ} {x : Action τ α} :
    (zoom part put x).Notes s n ↔ x.Notes (part s) n := Iff.rfl

theorem notes_onFailure {x : Action σ α} {cleanup : Error → Action σ Unit}
    (h : (x.onFailure cleanup).Notes s n) :
    x.Notes s n ∨ ∃ e s', x.Fails s e s' ∧ (cleanup e).Notes s' n := by
  unfold Notes onFailure at h
  rcases ends : x s with ⟨_ | _, s', notes⟩
  · rename_i e
    simp only [ends, List.mem_append] at h
    refine h.imp (fun left => ?_) fun left => ⟨e, s', ⟨by rw [ends], by rw [ends]⟩, left⟩
    rw [Notes, ends]
    exact left
  · rw [ends] at h
    left
    rw [Notes, ends]
    exact h

/-- A note that a list of steps leaves comes from one of them, in a state that the steps keep to. -/
theorem notes_forM {I : σ → Prop} {f : α → Action σ PUnit} {xs : List α} (start : I s)
    (keeps : ∀ a ∈ xs, Keeps I (f a)) (h : (forM xs f).Notes s n) :
    ∃ a ∈ xs, ∃ s', I s' ∧ (f a).Notes s' n := by
  induction xs generalizing s with
  | nil => exact absurd h notes_pure
  | cons a rest ih =>
      rw [List.forM_cons] at h
      rcases notes_bind.1 h with here | ⟨_, s', one, later⟩
      · exact ⟨a, List.mem_cons_self, s, start, here⟩
      · obtain ⟨b, mem, s'', holds, left⟩ := ih ((keeps a List.mem_cons_self).of_answers one start)
          (fun b mem => keeps b (List.mem_cons_of_mem _ mem)) later
        exact ⟨b, List.mem_cons_of_mem _ mem, s'', holds, left⟩

theorem notes_onEach {step : Action (α × τ) Unit} {xs : List α} {t : τ}
    (h : (onEach step).Notes (xs, t) n) : ∃ a ∈ xs, ∃ t', step.Notes (a, t') n := by
  induction xs generalizing t with
  | nil => cases h
  | cons a rest ih =>
      unfold Notes onEach at h
      rcases ends : step (a, t) with ⟨_ | _, s, notes⟩
      · simp only [each, ends] at h
        refine ⟨a, List.mem_cons_self, t, ?_⟩
        rw [Notes, ends]
        exact h
      · simp only [each, ends, List.mem_append] at h
        rcases h with here | later
        · refine ⟨a, List.mem_cons_self, t, ?_⟩
          rw [Notes, ends]
          exact here
        · obtain ⟨b, mem, left⟩ := ih later
          exact ⟨b, List.mem_cons_of_mem _ mem, left⟩

end Noting

end ResourceTables.Action
