/-! Calls that change a state or fail. A call that fails leaves the state as it is, and whether a
call succeeds is decided by the calls before it.
-/

namespace RowFormula

namespace Changes

variable {σ γ ε : Type} (change : σ → γ → Except ε σ)

/-- The state that a call leaves, the same one if the call fails. -/
def next (s : σ) (call : γ) : σ :=
  match change s call with
  | .ok after => after
  | .error _ => s

/-- The state that calls leave which are made one after another. -/
def after (s : σ) (history : List γ) : σ :=
  history.foldl (next change) s

/-- The calls that succeed when all are made one after another. -/
def successes (s : σ) : List γ → List γ
  | [] => []
  | call :: rest =>
    match change s call with
    | .ok after => call :: successes after rest
    | .error _ => successes s rest

variable {change} {s t : σ} {call : γ} {cause : ε}

theorem next_of_ok (made : change s call = .ok t) : next change s call = t := by
  rw [next, made]

theorem next_of_error (failed : change s call = .error cause) : next change s call = s := by
  rw [next, failed]

theorem after_concat (s : σ) (history : List γ) (call : γ)
    : after change s (history ++ [call]) = next change (after change s history) call := by
  rw [after, List.foldl_append]
  rfl

/-- Whether a call succeeds is decided by the state that the calls before it leave, by induction on
them.
-/
theorem successes_concat (s : σ) (history : List γ) (call : γ)
    : successes change s (history ++ [call])
      = successes change s history
        ++ match change (after change s history) call with
          | .ok _ => [call]
          | .error _ => [] := by
  induction history generalizing s with
  | nil => rfl
  | cons first rest ih =>
      rw [List.cons_append, after, List.foldl_cons, ← after]
      cases made : change s first with
      | ok t => simp only [successes, made, next_of_ok made, ih, List.cons_append]
      | error cause => simp only [successes, made, next_of_error made, ih]

variable {history : List γ}

theorem after_of_ok (made : change (after change s history) call = .ok t)
    : after change s (history ++ [call]) = t := by
  rw [after_concat, next_of_ok made]

theorem after_of_error (failed : change (after change s history) call = .error cause)
    : after change s (history ++ [call]) = after change s history := by
  rw [after_concat, next_of_error failed]

theorem successes_of_ok (made : change (after change s history) call = .ok t)
    : successes change s (history ++ [call]) = successes change s history ++ [call] := by
  rw [successes_concat, made]

theorem successes_of_error (failed : change (after change s history) call = .error cause)
    : successes change s (history ++ [call]) = successes change s history := by
  rw [successes_concat, failed, List.append_nil]

end Changes

end RowFormula
