import BasicScript.Proofs.Outcome

/-! Acts that do the same on states that are alike. Whatever it is in which states and failures may
differ, such acts can be put together from acts of which it is known. -/

set_option autoImplicit false

namespace BasicScript

variable {ε σ α β : Type}

/-- Two outcomes with one value, or with failures that are alike, and with states that are alike. -/
inductive SameEnd (states : σ → σ → Prop) (stops : ε → ε → Prop) :
    EStateM.Result ε σ α → EStateM.Result ε σ α → Prop
  | value {a : α} {s t : σ} (alike : states s t) : SameEnd states stops (.ok a s) (.ok a t)
  | stop {x y : ε} {s t : σ} (both : stops x y) (alike : states s t) :
      SameEnd states stops (.error x s) (.error y t)

def Same (states : σ → σ → Prop) (stops : ε → ε → Prop) (m n : EStateM ε σ α) : Prop :=
  ∀ ⦃s t⦄, states s t → SameEnd states stops (m s) (n t)

section

variable {states : σ → σ → Prop} {stops : ε → ε → Prop}

theorem SameEnd.symm (before : ∀ s t, states s t → states t s)
    (failures : ∀ x y, stops x y → stops y x) {p q : EStateM.Result ε σ α}
    (ends : SameEnd states stops p q) : SameEnd states stops q p := by
  cases ends with
  | value alike => exact .value (before _ _ alike)
  | stop both alike => exact .stop (failures _ _ both) (before _ _ alike)

theorem SameEnd.trans (before : ∀ s t u, states s t → states t u → states s u)
    (failures : ∀ x y z, stops x y → stops y z → stops x z) {p q r : EStateM.Result ε σ α}
    (first : SameEnd states stops p q) (second : SameEnd states stops q r) :
    SameEnd states stops p r := by
  cases first with
  | value alike =>
    cases second with
    | value alike' => exact .value (before _ _ _ alike alike')
  | stop both alike =>
    cases second with
    | stop both' alike' => exact .stop (failures _ _ _ both both') (before _ _ _ alike alike')

end

namespace Same

variable {states : σ → σ → Prop} {stops : ε → ε → Prop} {m n : EStateM ε σ α}
  {k l : α → EStateM ε σ β}

theorem pure (a : α) : Same states stops (Pure.pure a) (Pure.pure a) := fun _ _ => .value

theorem throw {x y : ε} (both : stops x y) :
    Same states stops (MonadExcept.throw x : EStateM ε σ α) (MonadExcept.throw y) :=
  fun _ _ => .stop both

theorem bind (first : Same states stops m n) (rest : ∀ a, Same states stops (k a) (l a)) :
    Same states stops (m >>= k) (n >>= l) := by
  intro s t alike
  have ends := first alike
  simp only [Bind.bind, EStateM.bind]
  generalize m s = one, n t = other at ends ⊢
  cases ends with
  | value alike => exact rest _ alike
  | stop both alike => exact .stop both alike

theorem get {k l : σ → EStateM ε σ β}
    (rest : ∀ s t, states s t → SameEnd states stops (k s s) (l t t)) :
    Same states stops (MonadState.get >>= k) (MonadState.get >>= l) := rest

theorem map {φ ψ : EStateM.Result ε σ α → EStateM.Result ε σ β} (same : Same states stops m n)
    (maps : ∀ p q, SameEnd states stops p q → SameEnd states stops (φ p) (ψ q)) :
    Same states stops (fun s => φ (m s)) (fun s => ψ (n s)) := fun _ _ alike => maps _ _ (same alike)

theorem modifyGet {f g : σ → α × σ}
    (same : ∀ s t, states s t → (f s).1 = (g t).1 ∧ states (f s).2 (g t).2) :
    Same states stops (MonadStateOf.modifyGet f : EStateM ε σ α) (MonadStateOf.modifyGet g) := by
  intro s t alike
  obtain ⟨value, alike⟩ := same s t alike
  show SameEnd states stops (.ok (f s).1 (f s).2) (.ok (g t).1 (g t).2)
  rw [value]
  exact .value alike

end Same

end BasicScript
