import BasicScript.Node.Parser
import BasicScript.Proofs.Outcome

/-! What each step of the parser does at a given cursor, and which rule is followed by the tokens
that decide on it. -/

set_option autoImplicit false

namespace BasicScript

namespace Cursor

theorem next?_eq (c : Cursor) : TokenSource.next? c = c.rest.head? := rfl

theorem length_skipNewlines_go (rest : List Token) (taken : Nat) (previous : Option Token) :
    (skipNewlines.go rest taken previous).rest.length ≤ rest.length := by
  induction rest generalizing taken previous with
  | nil => exact Nat.le_refl _
  | cons token rest ih =>
    unfold skipNewlines.go
    split
    · exact Nat.le_succ_of_le (ih _ _)
    · exact Nat.le_refl _

theorem length_skipNewlines (c : Cursor) : c.skipNewlines.rest.length ≤ c.rest.length :=
  length_skipNewlines_go c.rest c.taken c.previous

theorem skipNewlines_left (c : Cursor) :
    TokenSource.skipNewlines (TokenSource.left c) c = c.skipNewlines := by
  obtain ⟨taken, previous, rest⟩ := c
  show TokenSource.skipNewlines rest.length _ = skipNewlines.go rest taken previous
  induction rest generalizing taken previous with
  | nil => rfl
  | cons token rest ih =>
    by_cases newline : token.kind = .newline
    · exact (if_pos (congrArg some newline)).trans
        ((ih (taken + 1) (some token)).trans (if_pos newline).symm)
    · exact (if_neg fun same => newline (Option.some.inj same)).trans (if_neg newline).symm

end Cursor

namespace Parser

variable {α : Type} {c : Cursor}

theorem peekKind?_eq (c : Cursor) : peekKind? c = .ok c.kind? c := rfl

theorem rounds_eq (c : Cursor) : rounds c = .ok (c.rest.length + 1) c := rfl

theorem get_eq (c : Cursor) : (get : Parser Cursor) c = .ok c c := rfl

theorem skipNewlines_eq (c : Cursor) : skipNewlines c = .ok ⟨⟩ c.skipNewlines :=
  congrArg (EStateM.Result.ok ()) c.skipNewlines_left

theorem fail_eq (fault : Fault) (span : Span) (c : Cursor) :
    (fail fault span : Parser α) c = .error ⟨fault, span, [], []⟩ c := rfl

theorem expected_eq (what : Expected) (c : Cursor) :
    (expected what : Parser α) c = .error ⟨.expected what c.describe, c.faultSpan, [], []⟩ c := rfl

theorem takeIf?_of_wanted {wanted : TokenKind → Bool} {taken : Nat} {previous : Option Token}
    {token : Token} {rest : List Token} (want : wanted token.kind = true) :
    takeIf? wanted (⟨taken, previous, token :: rest⟩ : Cursor) =
      .ok (some token) ⟨taken + 1, some token, rest⟩ := by
  refine (bind_of_ok (get_eq _)).trans ?_
  show (if wanted token.kind then _ else _ : Parser (Option Token)) _ = _
  rw [if_pos want]
  rfl

theorem takeIf?_of_other {wanted : TokenKind → Bool} (other : c.kind?.any wanted = false) :
    takeIf? wanted c = .ok none c := by
  obtain ⟨taken, previous, rest⟩ := c
  cases rest with
  | nil => rfl
  | cons token rest =>
    refine (bind_of_ok (get_eq _)).trans ?_
    show (if wanted token.kind then _ else _ : Parser (Option Token)) _ = _
    rw [if_neg (show ¬wanted token.kind = true from Bool.eq_false_iff.mp other)]
    rfl

theorem unwanted_of_ne {h : Option TokenKind} {kind : TokenKind} (other : h ≠ some kind) :
    h.any (· == kind) = false := by
  cases h with
  | none => rfl
  | some k => simpa using other

theorem take_of_other {kind : TokenKind} (what : Expected) (other : c.kind? ≠ some kind) :
    take kind what c = expected what c :=
  bind_of_ok (takeIf?_of_other (unwanted_of_ne other))

theorem tryCatch_of_ok {σ : Type} {p : ParserOver σ α} {handle : Diagnostic → ParserOver σ α}
    {a : α} {s t : σ} (done : p s = .ok a t) : tryCatch p handle s = .ok a t := by
  show EStateM.tryCatch p handle s = _
  delta EStateM.tryCatch
  simp only [done]

theorem tryCatch_of_error {σ : Type} {p : ParserOver σ α} {handle : Diagnostic → ParserOver σ α}
    {d : Diagnostic} {s t : σ} (failed : p s = .error d t) : tryCatch p handle s = handle d t := by
  show EStateM.tryCatch p handle s = _
  delta EStateM.tryCatch
  simp only [failed]
  rfl

theorem operandOf_of_ok {sign : Token} {p : Parser α} {a : α} {d : Cursor} (done : p c = .ok a d) :
    operandOf sign p c = .ok a d :=
  (bind_of_ok (get_eq _)).trans (tryCatch_of_ok done)

/-- The fault of an operand that fails at its first token. -/
def operandFault (sign : Token) (d : Diagnostic) (at' : Cursor) : Diagnostic :=
  ⟨.expected (.operandOf sign.lexeme) at'.describe, d.span, [], []⟩

theorem operandOf_of_error {sign : Token} {p : Parser α} {d : Diagnostic} {after : Cursor}
    (failed : p c = .error d after) :
    operandOf sign p c =
      .error (if after.taken = c.taken then operandFault sign d after else d) after := by
  refine (bind_of_ok (get_eq _)).trans ((tryCatch_of_error failed).trans ?_)
  refine (bind_of_ok (get_eq _)).trans ?_
  show (if after.taken = c.taken then _ else _ : Parser α) after = _
  by_cases unmoved : after.taken = c.taken
  · rw [if_pos unmoved, if_pos unmoved]
    rfl
  · rw [if_neg unmoved, if_neg unmoved]
    rfl

end Parser

namespace Grammar

open BasicScript.Parser

variable {r : Rules} {taken : Nat} {previous : Option Token} {token : Token} {rest : List Token}
  {rule : Parser Node}

theorem atom_cons : atom r ⟨taken, previous, token :: rest⟩ =
    match atomOf? r token with
    | none => expected .expression ⟨taken, previous, token :: rest⟩
    | some rule => rule ⟨taken + 1, some token, rest⟩ := by
  refine (bind_of_ok (get_eq _)).trans ?_
  rw [Cursor.next?_eq, List.head?_cons]
  dsimp only
  cases atomOf? r token <;> rfl

theorem atom_of_rule (found : atomOf? r token = some rule) :
    atom r ⟨taken, previous, token :: rest⟩ = rule ⟨taken + 1, some token, rest⟩ := by
  rw [atom_cons, found]

theorem atom_of_none (missing : atomOf? r token = none) :
    atom r ⟨taken, previous, token :: rest⟩ =
      expected .expression ⟨taken, previous, token :: rest⟩ := by
  rw [atom_cons, missing]

def assigns : List Token → Bool
  | name :: sign :: _ => name.kind == .identifier && (assignmentOperator? sign.kind).isSome
  | _ => false

theorem assignmentSign?_cons (sign : Token) :
    assignmentSign? token (⟨taken, previous, token :: sign :: rest⟩ : Cursor) =
      if assigns (token :: sign :: rest) then some sign else none := by
  by_cases name : token.kind = .identifier
  · simp [assignmentSign?, assigns, name, TokenSource.second?, Option.filter]
  · simp [assignmentSign?, assigns, name]

theorem statement_cons : statement r ⟨taken, previous, token :: rest⟩ =
    match statementOf? r token with
    | some rule => rule ⟨taken + 1, some token, rest⟩
    | none =>
      match assignmentSign? token (⟨taken, previous, token :: rest⟩ : Cursor) with
      | some sign => assignment r token sign
          (Cursor.advance (Cursor.advance ⟨taken, previous, token :: rest⟩))
      | none => expression r ⟨taken, previous, token :: rest⟩ := by
  refine (bind_of_ok (get_eq _)).trans ?_
  rw [Cursor.next?_eq, List.head?_cons]
  dsimp only
  cases statementOf? r token with
  | some rule => rfl
  | none =>
    dsimp only
    cases assignmentSign? token (⟨taken, previous, token :: rest⟩ : Cursor) <;> rfl

theorem statement_of_rule (found : statementOf? r token = some rule) :
    statement r ⟨taken, previous, token :: rest⟩ = rule ⟨taken + 1, some token, rest⟩ := by
  rw [statement_cons, found]

theorem statementOf?_identifier (name : token.kind = .identifier) : statementOf? r token = none := by
  simp only [statementOf?, name]

theorem statement_of_assigns {sign : Token} (signed : assigns (token :: sign :: rest) = true) :
    statement r ⟨taken, previous, token :: sign :: rest⟩ =
      assignment r token sign ⟨taken + 2, some sign, rest⟩ := by
  have name : token.kind = .identifier := by
    simp only [assigns, Bool.and_eq_true, beq_iff_eq] at signed
    exact signed.1
  rw [statement_cons, statementOf?_identifier name, assignmentSign?_cons, if_pos signed]
  rfl

theorem statement_of_other {c : Cursor} (missing : ∀ token, c.rest.head? = some token →
    statementOf? r token = none) (unsigned : assigns c.rest = false) :
    statement r c = expression r c := by
  obtain ⟨taken, previous, _ | ⟨token, _ | ⟨sign, rest⟩⟩⟩ := c
  · exact bind_of_ok (get_eq _)
  · have alone : assignmentSign? token (⟨taken, previous, [token]⟩ : Cursor) = none := by
      simp [assignmentSign?, TokenSource.second?]
    rw [statement_cons, missing token rfl, alone]
  · rw [statement_cons, missing token rfl, assignmentSign?_cons, unsigned, if_neg Bool.false_ne_true]

end Grammar

end BasicScript
