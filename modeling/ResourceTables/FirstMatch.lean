/-
# `ResourceTables.FirstMatch` — lists in which the first element of a kind is changed
-/
namespace ResourceTables

variable {α : Type}

/-- Puts `a` in the place of the first element with `p`, else at the end. -/
def putFirst (p : α → Bool) (a : α) : List α → List α
  | [] => [a]
  | x :: rest => if p x then a :: rest else x :: putFirst p a rest

/-- Changes the first element with `p`, if there is one. -/
def changeFirst (p : α → Bool) (f : α → α) : List α → List α
  | [] => []
  | x :: rest => if p x then f x :: rest else x :: changeFirst p f rest

end ResourceTables
