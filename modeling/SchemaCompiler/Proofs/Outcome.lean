/-!
# Steps that can fail

When a step built from others gives a value: `Except` computations after each other, with their
value changed, or with their error seen as another one.
-/

namespace SchemaCompiler

variable {ε δ α β : Type}

/-- Steps one after the other give a value when each of them does. -/
theorem bind_eq_ok_iff {step : Except ε α} {next : α → Except ε β} {value : β} :
    step >>= next = .ok value ↔ ∃ middle, step = .ok middle ∧ next middle = .ok value := by
  cases step with
  | error error => simp [bind, Except.bind]
  | ok middle => simp [bind, Except.bind]

/-- A step with its value changed gives a value when the step does. -/
theorem map_eq_ok_iff {step : Except ε α} {change : α → β} {value : β} :
    step.map change = .ok value ↔ ∃ found, step = .ok found ∧ change found = value := by
  cases step with
  | error error => simp [Except.map]
  | ok found => simp [Except.map]

/-- A step gives the same value when its errors are seen as others. -/
theorem mapError_eq_ok_iff {embed : ε → δ} {step : Except ε α} {value : α} :
    step.mapError embed = .ok value ↔ step = .ok value := by
  cases step with
  | error error => exact ⟨nofun, nofun⟩
  | ok found =>
      constructor
      · intro h
        cases h
        rfl
      · intro h
        cases h
        rfl

end SchemaCompiler
