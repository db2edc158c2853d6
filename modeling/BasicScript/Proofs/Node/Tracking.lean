import BasicScript.Proofs.Node.Loop
import BasicScript.Proofs.Node.Relocation

/-! One parser tracks another if it does on relocated tokens what the other does on the tokens as
they are. How many tokens may be left, before and after, is part of the judgement: a rule that has
taken a token may call the rules that are unfolded once less. -/

set_option autoImplicit false

namespace BasicScript

variable {g : Relocation}

namespace Token

@[simp] theorem kind_relocate (token : Token) : (token.relocate g).kind = token.kind := rfl

@[simp] theorem lexeme_relocate (token : Token) : (token.relocate g).lexeme = token.lexeme := rfl

@[simp] theorem literal_relocate (token : Token) : (token.relocate g).literal = token.literal := rfl

@[simp] theorem span_relocate (token : Token) : (token.relocate g).span = g.span token.span := rfl

@[simp] theorem describe_relocate (token : Token) : (token.relocate g).describe = token.describe :=
  rfl

end Token

/-- A diagnostic about a text: no call and no import has a part in its fault. -/
structure Diagnostic.OfText (d : Diagnostic) : Prop where
  phase : d.fault.kind.phase ≠ .runtime
  trace : d.trace = []
  notes : d.notes = []

/-- A diagnostic and the same one about relocated tokens. Only a text without tokens has no place
that moves. -/
structure Relocation.Moves (g : Relocation) (d e : Diagnostic) : Prop where
  ofText : d.OfText
  fault : e.fault = d.fault
  span : e.span = g.span d.span ∨ d.span = .synthetic "<empty>" ∧ e.span = d.span
  trace : e.trace = d.trace
  notes : e.notes = d.notes

namespace Cursor

def relocate (g : Relocation) (c : Cursor) : Cursor :=
  ⟨c.taken, c.previous.map (Token.relocate g), c.rest.map (Token.relocate g)⟩

@[simp] theorem taken_relocate (c : Cursor) : (c.relocate g).taken = c.taken := rfl

@[simp] theorem rest_relocate (c : Cursor) :
    (c.relocate g).rest = c.rest.map (Token.relocate g) := rfl

@[simp] theorem kind?_relocate (c : Cursor) : (c.relocate g).kind? = c.kind? := by
  simp [kind?, Function.comp_def]

@[simp] theorem describe_relocate (c : Cursor) : (c.relocate g).describe = c.describe := by
  simp [describe, Function.comp_def]

theorem faultSpan_relocate (c : Cursor) :
    (c.relocate g).faultSpan = g.span c.faultSpan ∨
      c.faultSpan = .synthetic "<empty>" ∧ (c.relocate g).faultSpan = c.faultSpan := by
  obtain ⟨taken, previous, rest⟩ := c
  cases rest with
  | cons token rest => exact .inl rfl
  | nil =>
    cases previous with
    | some last => exact .inl (g.single last.span).symm
    | none => exact .inr ⟨rfl, rfl⟩

theorem skipNewlines_go_relocate (rest : List Token) (taken : Nat) (previous : Option Token) :
    skipNewlines.go (rest.map (Token.relocate g)) taken (previous.map (Token.relocate g)) =
      (skipNewlines.go rest taken previous).relocate g := by
  induction rest generalizing taken previous with
  | nil => rfl
  | cons token rest ih =>
    by_cases newline : token.kind = .newline
    · exact (if_pos newline).trans
        ((ih (taken + 1) (some token)).trans (congrArg (relocate g) (if_pos newline).symm))
    · exact (if_neg newline).trans
        (congrArg (relocate g) (if_neg newline : skipNewlines.go (token :: rest) _ _ = _).symm)

@[simp] theorem skipNewlines_relocate (c : Cursor) :
    (c.relocate g).skipNewlines = c.skipNewlines.relocate g :=
  skipNewlines_go_relocate c.rest c.taken c.previous

end Cursor

/-- Two ends of a parser. Behind a value fewer than `l` tokens are left. -/
inductive Tracked {α β : Type} (g : Relocation) (l : Nat) (f : α → β) :
    EStateM.Result Diagnostic Cursor α → EStateM.Result Diagnostic Cursor β → Prop
  | value {a : α} {c : Cursor} (left : c.rest.length < l) :
    Tracked g l f (.ok a c) (.ok (f a) (c.relocate g))
  | stop {d e : Diagnostic} {c : Cursor} (moves : g.Moves d e) :
    Tracked g l f (.error d c) (.error e (c.relocate g))

/-- As long as fewer than `k` tokens are left, `q` does on relocated tokens what `p` does. -/
def Tracks {α β : Type} (g : Relocation) (k l : Nat) (f : α → β) (p : Parser α) (q : Parser β) :
    Prop :=
  ∀ c : Cursor, c.rest.length < k → Tracked g l f (p c) (q (c.relocate g))

namespace Tracks

variable {α β γ δ : Type} {k l m : Nat} {f : α → β} {h : γ → δ} {p : Parser α} {q : Parser β}

theorem none_left : Tracks g 0 l f p q := fun _ left => absurd left (Nat.not_lt_zero _)

theorem mono {k' l' : Nat} (tracks : Tracks g k l f p q) (before : k' ≤ k) (after : l ≤ l') :
    Tracks g k' l' f p q := by
  intro c left
  have := tracks c (Nat.lt_of_lt_of_le left before)
  generalize p c = first, q (c.relocate g) = second at this ⊢
  cases this with
  | value left => exact .value (Nat.lt_of_lt_of_le left after)
  | stop moves => exact .stop moves

theorem pure {a : α} {b : β} (image : f a = b) : Tracks g k k f (Pure.pure a) (Pure.pure b) := by
  intro c left
  rw [← image]
  exact .value left

theorem bind {r : α → Parser γ} {s : β → Parser δ} (first : Tracks g k l f p q)
    (rest : ∀ a, Tracks g l m h (r a) (s (f a))) : Tracks g k m h (p >>= r) (q >>= s) := by
  intro c left
  have := first c left
  simp only [Bind.bind, EStateM.bind]
  generalize p c = one, q (c.relocate g) = other at this ⊢
  cases this with
  | value left => exact rest _ _ left
  | stop moves => exact .stop moves

theorem map {u : α → γ} {v : β → δ} (tracks : Tracks g k l f p q) (image : ∀ a, h (u a) = v (f a)) :
    Tracks g k l h (u <$> p) (v <$> q) := by
  rw [map_eq_pure_bind, map_eq_pure_bind]
  exact .bind tracks fun a => .pure (image a)

theorem ite {P : Prop} [Decidable P] {p' : Parser α} {q' : Parser β} (yes : Tracks g k l f p q)
    (no : Tracks g k l f p' q') : Tracks g k l f (if P then p else p') (if P then q else q') := by
  split
  · exact yes
  · exact no

theorem fail {fault : Fault} {s t : Span} (phase : fault.kind.phase ≠ .runtime)
    (span : t = g.span s ∨ s = .synthetic "<empty>" ∧ t = s) :
    Tracks g k l f (Parser.fail fault s) (Parser.fail fault t) :=
  fun _ _ => .stop ⟨⟨phase, rfl, rfl⟩, rfl, span, rfl, rfl⟩

theorem expected (what : Expected) : Tracks g k l f (Parser.expected what) (Parser.expected what) := by
  intro c _
  rw [Parser.expected_eq, Parser.expected_eq, Cursor.describe_relocate]
  exact .stop ⟨⟨nofun, rfl, rfl⟩, rfl, c.faultSpan_relocate, rfl, rfl⟩

theorem look {r : Option TokenKind → Parser α} {s : Option TokenKind → Parser β}
    (rest : ∀ kind, Tracks g k l f (r kind) (s kind)) :
    Tracks g k l f (Parser.peekKind? >>= r) (Parser.peekKind? >>= s) := by
  intro c left
  rw [bind_of_ok (Parser.peekKind?_eq c), bind_of_ok (Parser.peekKind?_eq _),
    Cursor.kind?_relocate]
  exact rest c.kind? c left

theorem takeIf {wanted : TokenKind → Bool} {r : Option Token → Parser α}
    {s : Option Token → Parser β}
    (found : ∀ token, wanted token.kind = true →
      Tracks g k l f (r (some token)) (s (some (token.relocate g))))
    (other : Tracks g (k + 1) l f (r none) (s none)) :
    Tracks g (k + 1) l f (Parser.takeIf? wanted >>= r) (Parser.takeIf? wanted >>= s) := by
  intro c left
  by_cases unwanted : c.kind?.any wanted = false
  · rw [bind_of_ok (Parser.takeIf?_of_other unwanted),
      bind_of_ok (Parser.takeIf?_of_other (by rwa [Cursor.kind?_relocate]))]
    exact other c left
  · obtain ⟨taken, previous, _ | ⟨token, rest⟩⟩ := c
    · exact absurd rfl unwanted
    · have want : wanted token.kind = true := by simpa [Cursor.kind?] using unwanted
      rw [bind_of_ok (Parser.takeIf?_of_wanted want)]
      refine Eq.subst (bind_of_ok (Parser.takeIf?_of_wanted ?_)).symm
        (found token want ⟨taken + 1, some token, rest⟩ (Nat.lt_of_succ_lt_succ left))
      exact want

theorem take (kind : TokenKind) (what : Expected) :
    Tracks g (k + 1) k (Token.relocate g) (Parser.take kind what) (Parser.take kind what) :=
  takeIf (fun _ _ => .pure rfl) (.expected what)

theorem take_le (kind : TokenKind) (what : Expected) :
    Tracks g k k (Token.relocate g) (Parser.take kind what) (Parser.take kind what) := by
  cases k with
  | zero => exact .none_left
  | succ k => exact (take kind what).mono (Nat.le_refl _) (Nat.le_succ k)

theorem takeIf_le {wanted : TokenKind → Bool} {r : Option Token → Parser α}
    {s : Option Token → Parser β}
    (rest : ∀ token, Tracks g k k f (r token) (s (token.map (Token.relocate g)))) :
    Tracks g k k f (Parser.takeIf? wanted >>= r) (Parser.takeIf? wanted >>= s) := by
  cases k with
  | zero => exact .none_left
  | succ k => exact takeIf (fun token _ => (rest (some token)).mono (Nat.le_succ k) (Nat.le_refl _)) (rest none)

theorem skipNewlines : Tracks g k k id Parser.skipNewlines Parser.skipNewlines := by
  intro c left
  rw [Parser.skipNewlines_eq, Parser.skipNewlines_eq, Cursor.skipNewlines_relocate]
  exact .value (Nat.lt_of_le_of_lt c.length_skipNewlines left)

theorem operandOf (sign : Token) (tracks : Tracks g k l f p q) :
    Tracks g k l f (Parser.operandOf sign p) (Parser.operandOf (sign.relocate g) q) := by
  intro c left
  have := tracks c left
  generalize first : p c = one, second : q (c.relocate g) = other at this
  cases this with
  | value left =>
    rw [Parser.operandOf_of_ok first, Parser.operandOf_of_ok second]
    exact .value left
  | @stop d e after moves =>
    rw [Parser.operandOf_of_error first, Parser.operandOf_of_error second]
    refine .stop ?_
    have alike : (after.relocate g).taken = (c.relocate g).taken ↔ after.taken = c.taken := .rfl
    by_cases unmoved : after.taken = c.taken
    · rw [if_pos unmoved, if_pos (alike.mpr unmoved), Parser.operandFault,
        Parser.operandFault, Cursor.describe_relocate]
      exact ⟨⟨nofun, rfl, rfl⟩, rfl, moves.span, rfl, rfl⟩
    · rw [if_neg unmoved, if_neg (mt alike.mp unmoved)]
      exact moves

/-! ### Loops -/

section Loops

variable {σ τ : Type} {u : σ → τ} {body : (σ → Parser α) → σ → Parser α} {stop : σ → Parser α}
  {body' : (τ → Parser β) → τ → Parser β} {stop' : τ → Parser β}

/-- A round of one loop tracks a round of the other, if what comes behind does so with one token
less. -/
def Round (g : Relocation) (k : Nat) (f : α → β) (u : σ → τ)
    (body : (σ → Parser α) → σ → Parser α) (body' : (τ → Parser β) → τ → Parser β) : Prop :=
  ∀ j < k, ∀ again again', (∀ s, Tracks g j j f (again s) (again' (u s))) →
    ∀ s, Tracks g (j + 1) (j + 1) f (body again s) (body' again' (u s))

theorem Round.mono {j : Nat} (round : Round g k f u body body') (less : j ≤ k) :
    Round g j f u body body' :=
  fun i below => round i (Nat.lt_of_lt_of_le below less)

variable (stop stop') in
theorem iterate (round : Round g k f u body body') {n m : Nat} (enough : k ≤ n) (plenty : k ≤ m)
    (s : σ) :
    Tracks g k k f (Parser.iterate body stop n s) (Parser.iterate body' stop' m (u s)) := by
  induction k generalizing n m s with
  | zero => exact .none_left
  | succ k ih =>
    obtain ⟨n, rfl⟩ := Nat.exists_eq_add_of_le' enough
    obtain ⟨m, rfl⟩ := Nat.exists_eq_add_of_le' plenty
    refine round k (Nat.lt_succ_self k) _ _ (fun s => ?_) s
    exact ih (round.mono (Nat.le_succ k)) (Nat.le_add_left k n) (Nat.le_add_left k m) s

variable (stop stop') in
theorem loop (round : Round g k f u body body') (s : σ) :
    Tracks g k k f (Parser.loop body stop s) (Parser.loop body' stop' (u s)) := by
  intro c left
  have tracks := (iterate stop stop' (round.mono left) (Nat.le_refl _) (Nat.le_refl _) s).mono (Nat.le_refl _) left
  rw [Parser.loop_apply, Parser.loop_apply, Cursor.rest_relocate, List.length_map]
  exact tracks c (Nat.lt_succ_self _)

end Loops

/-! ### Without a move -/

theorem relocate_stay (c : Cursor) : c.relocate .stay = c := by
  have same : Token.relocate .stay = id := rfl
  simp only [Cursor.relocate, same, Option.map_id, List.map_id]
  rfl

/-- What stays where it is and tracks something else is the same. -/
theorem eq {p q : Parser α} {f : α → α} (tracks : Tracks .stay k l f p q) (same : ∀ a, f a = a)
    {c : Cursor} (left : c.rest.length < k) : p c = q c := by
  have ends := tracks c left
  rw [relocate_stay] at ends
  generalize p c = first, q c = second at ends ⊢
  cases ends with
  | value _ => rw [relocate_stay, same]
  | @stop d e c moves =>
    obtain ⟨fault, span, trace, notes⟩ := d
    obtain ⟨_, rfl, moved, rfl, rfl⟩ := moves
    obtain rfl | ⟨_, rfl⟩ := moved <;> rw [relocate_stay]

/-- A loop is its body with the loop behind it. -/
theorem loop_eq {σ : Type} {u : σ → σ} {f : α → α} {body : (σ → Parser α) → σ → Parser α}
    {stop : σ → Parser α} (round : ∀ k, Round .stay k f u body body) (same : ∀ a, f a = a)
    (kept : ∀ s, u s = s) : Parser.loop body stop = body (Parser.loop body stop) := by
  have further (k : Nat) (s : σ) :
      Tracks .stay k k f (Parser.iterate body stop k s) (Parser.loop body stop (u s)) := by
    intro c left
    have tracks := iterate stop stop ((round k).mono left) left (Nat.le_refl _) s
    rw [relocate_stay, Parser.loop_apply]
    have ends := (tracks.mono (Nat.le_refl _) left) c (Nat.lt_succ_self _)
    rwa [relocate_stay] at ends
  funext s c
  rw [Parser.loop_apply]
  have tracks := round (c.rest.length + 1) c.rest.length (Nat.lt_succ_self _) _ _ (further c.rest.length) s
  rw [kept] at tracks
  exact tracks.eq same (Nat.lt_succ_self _)

end Tracks

end BasicScript
