/-
# `ResourceTables.Rounds` — placing things after those they wait for

Each round places everything that is ready when the round begins, in the given order.  When a
round places nothing, what remains is stuck.
-/
namespace ResourceTables

variable {α : Type}

/-- The things that are ready once the names in `placed` are placed. -/
def readyIn (isReady : List String → α → Bool) (placed : List String) (things : List α) : List α :=
  things.filter (isReady placed)

/-- The things that still have to wait once the names in `placed` are placed. -/
def waitingIn (isReady : List String → α → Bool) (placed : List String) (things : List α) :
    List α :=
  things.filter (!isReady placed ·)

theorem length_waitingIn_lt {isReady : List String → α → Bool} {placed : List String}
    {things others : List α} {first : α} (h : readyIn isReady placed things = first :: others) :
    (waitingIn isReady placed things).length < things.length := by
  have mem : first ∈ readyIn isReady placed things := h ▸ List.mem_cons_self
  rw [readyIn, List.mem_filter] at mem
  exact List.length_filter_lt_length_iff_exists.2 ⟨first, mem.1, by simp [mem.2]⟩

/-- What gets placed, in order, and what is stuck. -/
def inRounds (name : α → String) (isReady : List String → α → Bool) (placed : List String)
    (remaining : List α) : List α × List α :=
  match _h : readyIn isReady placed remaining with
  | [] => ([], remaining)
  | first :: others =>
    let ready := first :: others
    let (later, stuck) :=
      inRounds name isReady (placed ++ ready.map name) (waitingIn isReady placed remaining)
    (ready ++ later, stuck)
termination_by remaining.length
decreasing_by exact length_waitingIn_lt _h

end ResourceTables
