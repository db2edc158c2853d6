import BasicScript.Proofs.Node.EndOfFile
import BasicScript.Proofs.Node.Unfolding

/-! The rules without a bound: how often a rule is unfolded is left to the number of tokens in front
of it. They are a fixed point of the grammar, their loops go on for as long as they are repeated,
and the parser follows them. -/

set_option autoImplicit false

namespace BasicScript

variable {g : Relocation} {k : Nat}

namespace Grammar

open BasicScript.Parser

/-- What `p` does with a bound that exceeds the number of tokens. -/
def unbound {α : Type} (p : Nat → Parser α) : Parser α := fun c => p (c.rest.length + 1) c

section

variable {α : Type} {f : α → α} {p : Nat → Parser α}

theorem unbound_takes (takes : ∀ k, Takes g k f (p k) (p k)) :
    Takes g k f (unbound p) (unbound p) := by
  intro j _ c left
  have ends := (takes (c.rest.length + 1) c.rest.length (Nat.lt_succ_self _)).mono (Nat.le_refl _)
    (Nat.le_of_lt_succ left) c (Nat.lt_succ_self _)
  simpa only [unbound, Cursor.rest_relocate, List.length_map] using ends

theorem unbound_takes_left
    (takes : ∀ k n m, k ≤ n → k ≤ m → Takes .stay k f (p n) (p m)) {n : Nat} (enough : k ≤ n) :
    Takes .stay k f (p n) (unbound p) := by
  intro j below c left
  have short : c.rest.length + 1 ≤ n := Nat.le_trans left (Nat.le_trans below enough)
  have ends := (takes (c.rest.length + 1) n (c.rest.length + 1) short (Nat.le_refl _)
    c.rest.length (Nat.lt_succ_self _)).mono (Nat.le_refl _) (Nat.le_of_lt_succ left) c
    (Nat.lt_succ_self _)
  simpa only [unbound, Cursor.rest_relocate, List.length_map] using ends

end

def unbounded : Rules where
  expression := unbound fun n => (unfolded n).expression
  comparison := unbound fun n => (unfolded n).comparison
  unary := unbound fun n => (unfolded n).unary
  statement := unbound fun n => (unfolded n).statement

theorem unbounded_track (g : Relocation) (k : Nat) : Rules.Track g k unbounded unbounded := by
  have track (k : Nat) := unfolded_track (g := g) (Nat.le_refl k) (Nat.le_refl k)
  exact ⟨unbound_takes fun k => (track k).expression, unbound_takes fun k => (track k).comparison,
    unbound_takes fun k => (track k).unary, unbound_takes fun k => (track k).statement⟩

/-- The rules without a bound go on where an unfolding would end. -/
theorem unfolded_unbounded_track {n : Nat} (enough : k ≤ n) :
    Rules.Track .stay k (unfolded n) unbounded where
  expression := unbound_takes_left (fun _ _ _ l l' => (unfolded_track l l').expression) enough
  comparison := unbound_takes_left (fun _ _ _ l l' => (unfolded_track l l').comparison) enough
  unary := unbound_takes_left (fun _ _ _ l l' => (unfolded_track l l').unary) enough
  statement := unbound_takes_left (fun _ _ _ l l' => (unfolded_track l l').statement) enough

/-- The rules without a bound are those in which they are called themselves. -/
theorem next_unbounded : next unbounded = unbounded := by
  have track (c : Cursor) :
      Rules.Track .stay (c.rest.length + 1) (next (unfolded c.rest.length)) (next unbounded) :=
    next_track (unfolded_unbounded_track (Nat.le_refl _))
  have same {p : Nat → Parser Node} {q : Parser Node}
      (takes : ∀ c : Cursor, Takes .stay (c.rest.length + 1) (Node.relocate .stay)
        (p (c.rest.length + 1)) q) : q = unbound p :=
    funext fun c => ((takes c).tracks.eq Node.relocate_stay (Nat.lt_succ_self _)).symm
  exact (RulesOver.mk.injEq ..).mpr ⟨same fun c => (track c).expression,
    same fun c => (track c).comparison, same fun c => (track c).unary,
    same fun c => (track c).statement⟩

theorem expression_unbounded : unbounded.expression = expression unbounded :=
  (congrArg RulesOver.expression next_unbounded).symm

theorem comparison_unbounded : unbounded.comparison = comparison unbounded :=
  (congrArg RulesOver.comparison next_unbounded).symm

theorem unary_unbounded : unbounded.unary = unary unbounded :=
  (congrArg RulesOver.unary next_unbounded).symm

theorem statement_unbounded : unbounded.statement = statement unbounded :=
  (congrArg RulesOver.statement next_unbounded).symm

/-! ### Loops -/

theorem map_relocate_stay (nodes : List Node) : nodes.map (Node.relocate .stay) = nodes := by
  rw [← Node.relocateAll_eq_map, Node.relocateAll_stay]

theorem bodyLoop_eq (terminators : List Keyword) (opener : Keyword) :
    bodyLoop unbounded terminators opener =
      blockBody unbounded terminators opener (bodyLoop unbounded terminators opener) :=
  Tracks.loop_eq (fun k => blockBody_round (unbounded_track .stay k) terminators opener)
    map_relocate_stay map_relocate_stay

theorem itemsLoop_eq {α : Type} {f : α → α} {item : Parser α}
    (tracks : ∀ k, Tracks .stay k k f item item) (same : ∀ a, f a = a) :
    itemsLoop item = itemsBody item (itemsLoop item) := by
  have same (items : List α) : items.map f = items := by simp [funext same]
  exact Tracks.loop_eq (fun _ => itemsBody_round fun j _ => tracks j) same same

theorem elseIfsLoop_eq : elseIfsLoop unbounded = elseIfsBody unbounded (elseIfsLoop unbounded) := by
  have same (branches : List (Node × List Node)) :
      branches.map (Node.relocateBranch .stay) = branches := by
    rw [← Node.relocateBranches_eq_map, Node.relocateBranches_stay]
  exact Tracks.loop_eq (fun k => elseIfsBody_round (unbounded_track .stay k)) same same

theorem parametersLoop_eq :
    (parametersLoop : List String → Parser _) = parametersBody parametersLoop :=
  Tracks.loop_eq (f := id) (fun _ => parametersBody_round) (fun _ => rfl) fun _ => rfl

theorem postfixLoop_eq : postfixLoop unbounded = postfixBody unbounded (postfixLoop unbounded) :=
  Tracks.loop_eq (fun k => (postfixBody_round (unbounded_track .stay k)).mono (Nat.le_succ k))
    Node.relocate_stay Node.relocate_stay

theorem chainLoop_eq {operator? : TokenKind → Option BinaryOperator} {operand : Parser Node}
    (takes : ∀ k, Takes .stay k (Node.relocate .stay) operand operand) :
    chainLoop operator? operand = chainBody operator? operand (chainLoop operator? operand) :=
  Tracks.loop_eq (fun k => chainBody_round (takes k)) Node.relocate_stay Node.relocate_stay

theorem programLoop_eq : programLoop unbounded.statement =
    programBody unbounded.statement (programLoop unbounded.statement) :=
  Tracks.loop_eq (fun k => programBody_round (unbounded_track .stay k).statement) map_relocate_stay
    map_relocate_stay

/-! ### Programs -/

def program : Parser (List Node) := programLoop unbounded.statement []

theorem program_tracks (g : Relocation) (k : Nat) :
    Tracks g k k (List.map (Node.relocate g)) program program :=
  .loop _ _ (programBody_round (unbounded_track g k).statement) []

end Grammar

namespace Node

/-- The parser follows the rules without a bound. -/
theorem parsing_eq (tokens : List Token) :
    parsing tokens = Grammar.program (Cursor.ofTokens tokens) := by
  let start := Cursor.ofTokens tokens
  have tracks := Tracks.loop (fun nodes => pure nodes.reverse) (fun nodes => pure nodes.reverse)
    (Grammar.programBody_round
      (Grammar.unfolded_unbounded_track (Nat.le_refl (start.rest.length + 1))).statement) []
  have same := tracks.eq Grammar.map_relocate_stay (Nat.lt_succ_self start.rest.length)
  rw [Parser.loop_apply, ← Grammar.programFrom_eq] at same
  exact same

theorem ofTokens_eq (tokens : List Token) :
    ofTokens tokens = Parser.answer (Grammar.program (Cursor.ofTokens tokens)) := by
  rw [ofTokens_eq_answer, parsing_eq]

end Node

theorem Cursor.ofTokens_relocate (tokens : List Token) :
    Cursor.ofTokens (tokens.map (Token.relocate g)) = (Cursor.ofTokens tokens).relocate g := by
  rw [ofTokens, List.takeWhile_map]
  rfl

/-- What tokens spell does not depend on where they stand. -/
theorem Node.ofTokens_relocate (tokens : List Token) :
    (∃ nodes, Node.ofTokens tokens = .ok nodes ∧
      Node.ofTokens (tokens.map (Token.relocate g)) = .ok (nodes.map (Node.relocate g))) ∨
    ∃ d e, g.Moves d e ∧ Node.ofTokens tokens = .error d ∧
      Node.ofTokens (tokens.map (Token.relocate g)) = .error e := by
  have ends := Grammar.program_tracks g _ (Cursor.ofTokens tokens) (Nat.lt_succ_self _)
  rw [ofTokens_eq, ofTokens_eq, Cursor.ofTokens_relocate]
  generalize Grammar.program (Cursor.ofTokens tokens) = first,
    Grammar.program ((Cursor.ofTokens tokens).relocate g) = second at ends
  cases ends with
  | value _ => exact .inl ⟨_, rfl, rfl⟩
  | stop moves => exact .inr ⟨_, _, moves, rfl, rfl⟩

end BasicScript
