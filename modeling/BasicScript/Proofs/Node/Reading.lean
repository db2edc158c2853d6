import BasicScript.Proofs.Node.Cursor

/-! What a parser reads, when the tokens behind are only known by the kind of the first of them. The
tokens are split into those that have been read and the tail, so that one statement speaks about all
tails of one kind. -/

set_option autoImplicit false

namespace BasicScript

/-- What may stand behind a stretch of tokens; `none` is the end of the file. -/
abbrev Follow := Option TokenKind → Prop

abbrev just (kind : TokenKind) : Follow := (· ∈ [some kind])

def first? (tokens : List Token) : Option TokenKind := tokens.head?.map Token.kind

@[simp] theorem first?_nil : first? [] = none := rfl

@[simp] theorem first?_cons (token : Token) (rest : List Token) :
    first? (token :: rest) = some token.kind := rfl

theorem first?_append {w : List Token} (some : w ≠ []) (u v : List Token) :
    first? (w ++ u) = first? (w ++ v) := by
  cases w with
  | nil => exact absurd rfl some
  | cons token rest => rfl

namespace Cursor

def before (c : Cursor) (tokens : List Token) : Cursor := { c with rest := tokens }

def past (c : Cursor) (read tail : List Token) : Cursor :=
  ⟨c.taken + read.length, read.getLast?.or c.previous, tail⟩

variable (c : Cursor) (u v w : List Token)

@[simp] theorem rest_before : (c.before w).rest = w := rfl

@[simp] theorem rest_past : (c.past v w).rest = w := rfl

@[simp] theorem before_rest : c.before c.rest = c := rfl

@[simp] theorem before_before : (c.before u).before v = c.before v := rfl

@[simp] theorem past_before : (c.past u v).before w = c.past u w := rfl

@[simp] theorem before_past : (c.before u).past v w = c.past v w := rfl

@[simp] theorem past_nil : c.past [] w = c.before w := by
  simp [past, before]

theorem past_past (x : List Token) : (c.past u v).past w x = c.past (u ++ w) x := by
  simp only [past, List.length_append, Nat.add_assoc, List.getLast?_append, Option.or_assoc]

theorem past_cons (token : Token) : c.past (token :: u) v = (c.past [token] v).past u v :=
  (c.past_past [token] v u v).symm

theorem eq_before {c : Cursor} {w tail : List Token} (splits : c.rest = w ++ tail) :
    c = c.before (w ++ tail) := by
  rw [← splits, before_rest]

end Cursor

/-- Wherever `w` stands in front of a tail that may follow, `p` reads it and has the value `a`. -/
def Reads {α : Type} (p : Parser α) (w : List Token) (a : α) (F : Follow) : Prop :=
  ∀ (c : Cursor) (tail : List Token), F (first? tail) →
    p (c.before (w ++ tail)) = .ok a (c.past w tail)

namespace Reads

open BasicScript.Parser

variable {α β : Type} {p : Parser α} {r : α → Parser β} {w v tail : List Token} {a : α} {b : β}
  {F G : Follow} {c : Cursor}

theorem apply (reads : Reads p w a F) (splits : c.rest = w ++ tail) (follows : F (first? tail)) :
    p c = .ok a (c.past w tail) := by
  rw [Cursor.eq_before splits, reads _ _ follows, Cursor.before_past]

theorem mono (reads : Reads p w a F) (less : ∀ h, G h → F h) : Reads p w a G :=
  fun c tail follows => reads c tail (less _ follows)

theorem pure (a : α) (F : Follow) : Reads (Pure.pure a) [] a F := by
  intro c tail _
  rw [Cursor.past_nil]
  rfl

theorem bind (first : Reads p w a F) (rest : Reads (r a) v b G)
    (meet : ∀ tail, G (first? tail) → F (first? (v ++ tail))) :
    Reads (p >>= r) (w ++ v) b G := by
  intro c tail follows
  have rest := rest (c.past w (v ++ tail)) tail follows
  rw [List.append_assoc, bind_of_ok (first c (v ++ tail) (meet tail follows)),
    ← Cursor.past_past c w (v ++ tail), ← rest, Cursor.past_before]

theorem bind_pure {f : α → β} (reads : Reads p w a F) :
    Reads (p >>= fun a => Pure.pure (f a)) w (f a) F := by
  have := reads.bind (r := fun a => Pure.pure (f a)) (.pure (f a) F) fun _ follows => follows
  rwa [List.append_nil] at this

/-- A parser that does the same as another as far as the next token is concerned. -/
theorem switch {p q : Parser α} (same : Follow) (reads : Reads q w a F)
    (agree : ∀ c : Cursor, same c.kind? → p c = q c)
    (now : ∀ tail, F (first? tail) → same (first? (w ++ tail))) : Reads p w a F := by
  intro c tail follows
  rw [← reads c tail follows]
  exact agree _ (now tail follows)

variable {wanted : TokenKind → Bool} {s : Option Token → Parser β} {token : Token}

theorem takeIf? (want : wanted token.kind = true) (F : Follow) :
    Reads (Parser.takeIf? wanted) [token] (some token) F :=
  fun _ _ _ => takeIf?_of_wanted want

theorem found (token : Token) (want : wanted token.kind = true) (reads : Reads (s (some token)) w b F) :
    Reads (Parser.takeIf? wanted >>= s) (token :: w) b F :=
  (takeIf? want fun _ => True).bind reads fun _ _ => trivial

theorem missed (reads : Reads (s none) w b F)
    (unwanted : ∀ tail, F (first? tail) → (first? (w ++ tail)).any wanted = false) :
    Reads (Parser.takeIf? wanted >>= s) w b F :=
  reads.switch (·.any wanted = false) (fun _ other => bind_of_ok (takeIf?_of_other other)) unwanted

theorem take (token : Token) (what : Expected) (F : Follow) :
    Reads (Parser.take token.kind what) [token] token F :=
  found token (beq_self_eq_true _) (.pure token F)

theorem skipNewlines_go (newlines : ∀ token ∈ w, token.kind = .newline)
    (other : first? tail ≠ some .newline) (c : Cursor) :
    Cursor.skipNewlines.go (w ++ tail) c.taken c.previous = c.past w tail := by
  induction w generalizing c with
  | nil =>
    cases tail with
    | nil => rfl
    | cons token rest => exact if_neg fun newline => other (congrArg some newline)
  | cons token rest ih =>
    obtain ⟨newline, newlines⟩ := List.forall_mem_cons.mp newlines
    rw [Cursor.past_cons]
    exact (if_pos newline).trans (ih newlines (c.past [token] tail))

theorem skipNewlines (newlines : ∀ token ∈ w, token.kind = .newline) :
    Reads Parser.skipNewlines w ⟨⟩ (· ≠ some .newline) := by
  intro c tail other
  rw [skipNewlines_eq]
  exact congrArg (EStateM.Result.ok ()) (skipNewlines_go newlines other c)

theorem skip {q : Parser β} (reads : Reads q w b F)
    (real : ∀ tail, F (first? tail) → first? (w ++ tail) ≠ some .newline) :
    Reads (Parser.skipNewlines >>= fun _ => q) w b F :=
  .bind (w := []) (skipNewlines (List.forall_mem_nil _)) reads real

theorem taking {r : Token → Parser β} (token : Token) (what : Expected)
    (reads : Reads (r token) w b F) :
    Reads (Parser.take token.kind what >>= r) (token :: w) b F :=
  (take token what fun _ => True).bind reads fun _ _ => trivial

theorem operandOf (sign : Token) (reads : Reads p w a F) : Reads (Parser.operandOf sign p) w a F :=
  fun c tail follows => operandOf_of_ok (reads c tail follows)

end Reads

end BasicScript
