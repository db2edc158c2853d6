/-! Acts that carry a state and may fail, in two parts. -/

set_option autoImplicit false

namespace BasicScript

variable {ε σ α β : Type} {first : EStateM ε σ α} {rest : α → EStateM ε σ β} {s t : σ}

theorem bind_of_ok {a : α} (done : first s = .ok a t) : (first >>= rest) s = rest a t := by
  simp only [bind, EStateM.bind, done]

theorem bind_of_error {e : ε} (failed : first s = .error e t) :
    (first >>= rest) s = .error e t := by
  simp only [bind, EStateM.bind, failed]

/-- What an act in two parts does if it has a value. -/
theorem ok_of_bind {b : β} (ended : (first >>= rest) s = .ok b t) :
    ∃ a u, first s = .ok a u ∧ rest a u = .ok b t := by
  simp only [bind, EStateM.bind] at ended
  generalize first s = outcome at ended ⊢
  cases outcome with
  | ok a u => exact ⟨a, u, rfl, ended⟩
  | error _ _ => cases ended

end BasicScript
