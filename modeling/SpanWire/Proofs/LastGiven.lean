/-! The last of the values that steps give, and what is left of these in the end. -/
namespace SpanWire

/-- The last of the values that steps give. -/
def lastGiven {σ α : Type} (give : σ → Option α) (steps : List σ) : Option α :=
  (steps.filterMap give).getLast?

section LastGiven

variable {σ α ε : Type} {give : σ → Option α}

theorem lastGiven_cons (st : σ) (steps : List σ) :
    lastGiven give (st :: steps) = (lastGiven give steps).or (give st) := by
  unfold lastGiven
  cases hst : give st with
  | none => rw [List.filterMap_cons_none hst, Option.or_none]
  | some a =>
    rw [List.filterMap_cons_some hst, List.getLast?_cons]
    cases (steps.filterMap give).getLast? <;> rfl

/-- A part that a step makes from what it gives, or else leaves alone, is in the end made from what
was given last. -/
theorem foldl_lastGiven {β : Type} {apply : ε → σ → ε} (part : ε → β) {put : α → β}
    (h : ∀ e st, part (apply e st) = (give st).elim (part e) put) (e : ε) (steps : List σ) :
    part (steps.foldl apply e) = (lastGiven give steps).elim (part e) put := by
  induction steps generalizing e with
  | nil => rfl
  | cons st steps ih =>
    rw [List.foldl_cons, ih, h, lastGiven_cons]
    cases lastGiven give steps <;> rfl

/-- Only the steps that may give something count. -/
theorem filterMap_filter {p : σ → Bool} (h : ∀ st, p st = false → give st = none)
    (steps : List σ) : (steps.filter p).filterMap give = steps.filterMap give := by
  rw [List.filterMap_filter]
  congr 1
  funext st
  cases hst : p st with
  | false => exact (h st hst).symm
  | true => rfl

theorem lastGiven_filter {p : σ → Bool} (h : ∀ st, p st = false → give st = none)
    (steps : List σ) : lastGiven give (steps.filter p) = lastGiven give steps :=
  congrArg List.getLast? (filterMap_filter h steps)

end LastGiven

end SpanWire
