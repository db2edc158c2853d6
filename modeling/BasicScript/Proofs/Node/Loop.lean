import BasicScript.Proofs.Node.Cursor

/-! The loops of the parser. Each of them repeats one body, and their rounds are counted only so
that they end. -/

set_option autoImplicit false

namespace BasicScript

namespace Parser

variable {π σ α : Type}

def iterate (body : (σ → ParserOver π α) → σ → ParserOver π α) (stop : σ → ParserOver π α) :
    Nat → σ → ParserOver π α
  | 0 => stop
  | n + 1 => body (iterate body stop n)

/-- A loop with a round for each token that is left, and one more. -/
def loop [TokenSource π] (body : (σ → ParserOver π α) → σ → ParserOver π α)
    (stop : σ → ParserOver π α) (s : σ) : ParserOver π α := do
  iterate body stop (← rounds) s

theorem loop_apply (body : (σ → Parser α) → σ → Parser α) (stop : σ → Parser α) (s : σ)
    (c : Cursor) : loop body stop s c = iterate body stop (c.rest.length + 1) s c :=
  bind_of_ok (rounds_eq c)

end Parser

namespace Grammar

open BasicScript.Parser

variable {π α : Type} [TokenSource π] {r : RulesOver π}

section Blocks

variable (r : RulesOver π) (terminators : List Keyword) (opener : Keyword)

def blockBody (again : List Node → ParserOver π (List Node)) (body : List Node) :
    ParserOver π (List Node) := do
  skipNewlines
  if ← atKeyword terminators then return body.reverse
  match ← peekKind? with
  | none => expected (.blockEnd terminators opener)
  | some _ => again ((← statementLine r.statement) :: body)

theorem blockFrom_eq (n : Nat) :
    blockFrom r terminators opener n = iterate (blockBody r terminators opener)
      (fun _ => expected (.blockEnd terminators opener)) n := by
  induction n with
  | zero => rfl
  | succ n ih =>
    funext body
    simp only [blockFrom, iterate, ih]
    rfl

def bodyLoop : List Node → ParserOver π (List Node) :=
  loop (blockBody r terminators opener) fun _ => expected (.blockEnd terminators opener)

theorem block_eq : block r terminators opener = bodyLoop r terminators opener [] := by
  simp only [block, blockFrom_eq, bodyLoop, loop]

end Blocks

section Items

variable (item : ParserOver π α)

def itemsBody (again : List α → ParserOver π (List α)) (items : List α) : ParserOver π (List α) := do
  let items := (← item) :: items
  skipNewlines
  match ← take? .comma with
  | none => return items.reverse
  | some _ =>
    skipNewlines
    again items

theorem itemsFrom_eq (n : Nat) :
    itemsFrom item n = iterate (itemsBody item) (fun _ => expected .expression) n := by
  induction n with
  | zero => rfl
  | succ n ih =>
    funext items
    simp only [itemsFrom, iterate, ih]
    rfl

def itemsLoop : List α → ParserOver π (List α) := loop (itemsBody item) fun _ => expected .expression

theorem itemsBefore_eq (close : TokenKind) :
    itemsBefore close item = (do
      skipNewlines
      if (← peekKind?) = some close then return []
      itemsLoop item []) := by
  simp only [itemsBefore, itemsFrom_eq, itemsLoop, loop]

end Items

def listItems (r : RulesOver π) (first : Span) (start : Node) : ParserOver π Node := do
  let items ← match ← take? .comma with
    | none => pure []
    | some _ => do
      skipNewlines
      itemsLoop r.expression []
  let last ← take .rightBracket .listEnd
  return .list (start :: items) (first.upTo last.span)

def listRest (r : RulesOver π) (first : Span) (start : Node) : ParserOver π Node := do
  skipNewlines
  match ← take? .arrow with
  | some _ => range r first start
  | none => listItems r first start

theorem list_eq (first : Span) :
    list r first = (do
      skipNewlines
      match ← take? .rightBracket with
      | some last => return .list [] (first.upTo last.span)
      | none => listRest r first (← r.expression)) := by
  simp only [list, itemsFrom_eq]
  rfl

def elseIfsBody (r : RulesOver π)
    (again : List (Node × List Node) → ParserOver π (List (Node × List Node)))
    (branches : List (Node × List Node)) : ParserOver π (List (Node × List Node)) := do
  match ← take? (.keyword .elseIf) with
  | none => return branches.reverse
  | some _ => again ((← branch r blockEnds .elseIf) :: branches)

theorem elseIfsFrom_eq (n : Nat) :
    elseIfsFrom r n = iterate (elseIfsBody r) (fun branches => pure branches.reverse) n := by
  induction n with
  | zero => rfl
  | succ n ih =>
    funext branches
    simp only [elseIfsFrom, iterate, ih]
    rfl

def elseIfsLoop (r : RulesOver π) :
    List (Node × List Node) → ParserOver π (List (Node × List Node)) :=
  loop (elseIfsBody r) fun branches => pure branches.reverse

def ifRest (r : RulesOver π) (first : Span) (branches : List (Node × List Node)) :
    ParserOver π Node := do
  let otherwise ← match ← take? (.keyword .else) with
    | none => pure none
    | some _ => some <$> block r [.end] .else
  let last ← blockClose .if
  return .ifElse branches otherwise (first.upTo last.span)

theorem ifElse_eq (first : Span) :
    ifElse r first = (do
      let head ← branch r blockEnds .if
      ifRest r first (← elseIfsLoop r [head])) := by
  simp only [ifElse, elseIfsFrom_eq]
  rfl

def parameter (names : List String) : ParserOver π String := do
  let param ← take .identifier .parameterName
  if names.contains param.lexeme then fail (.duplicateParameter param.lexeme) param.span
  return param.lexeme

def parametersBody (again : List String → ParserOver π (List String)) (names : List String) :
    ParserOver π (List String) := do
  let param ← parameter names
  match ← take? .comma with
  | none => return (param :: names).reverse
  | some _ => again (param :: names)

theorem parametersFrom_eq (n : Nat) :
    (parametersFrom n : List String → ParserOver π _) =
      iterate parametersBody (fun _ => expected .parameterName) n := by
  induction n with
  | zero => rfl
  | succ n ih =>
    funext names
    simp only [parametersFrom, iterate, ih, parametersBody, parameter, bind_assoc]
    congr 1
    funext param
    split <;> rfl

def parametersLoop : List String → ParserOver π (List String) :=
  loop parametersBody fun _ => expected .parameterName

theorem parameters_eq : (parameters : ParserOver π _) = (do
    if (← peekKind?) = some .rightParen then return []
    parametersLoop []) := by
  simp only [parameters, parametersFrom_eq, parametersLoop, loop]

def postfixBody (r : RulesOver π) (again : Node → ParserOver π Node) (node : Node) :
    ParserOver π Node := do
  match ← takeIf? fun kind => kind == .leftParen || kind == .leftBracket || kind == .dot with
  | none => return node
  | some opening =>
    match opening.kind with
    | .leftParen => again (← call r node)
    | .leftBracket =>
      let (index, span) ← index r node
      match ← take? .equal with
      | none => again (.getIndex node index span)
      | some equals =>
        let value ← operandOf equals r.expression
        return .setIndex node index value (node.span.upTo value.span)
    | _ =>
      let name ← take .identifier .attributeName
      again (.member node name.lexeme (node.span.upTo name.span))

theorem postfixFrom_eq (n : Nat) : postfixFrom r n = iterate (postfixBody r) pure n := by
  induction n with
  | zero => rfl
  | succ n ih =>
    funext node
    simp only [postfixFrom, iterate, ih]
    rfl

def postfixLoop (r : RulesOver π) : Node → ParserOver π Node := loop (postfixBody r) pure

theorem chained_eq : chained r = atom r >>= postfixLoop r := by
  simp only [chained, postfixFrom_eq]
  rfl

section Chains

variable (operator? : TokenKind → Option BinaryOperator) (operand : ParserOver π Node)

def chainBody (again : Node → ParserOver π Node) (left : Node) : ParserOver π Node := do
  match ← takeIf? fun kind => (operator? kind).isSome with
  | none => return left
  | some sign =>
    let right ← operandOf sign operand
    again (.infixed left ((operator? sign.kind).getD .add) right)

theorem chainFrom_eq (n : Nat) :
    chainFrom operator? operand n = iterate (chainBody operator? operand) pure n := by
  induction n with
  | zero => rfl
  | succ n ih =>
    funext left
    simp only [chainFrom, iterate, ih]
    rfl

def chainLoop : Node → ParserOver π Node := loop (chainBody operator? operand) pure

theorem chain_eq : chain operator? operand = operand >>= chainLoop operator? operand := by
  simp only [chain, chainFrom_eq]
  rfl

end Chains

def programBody (statement : ParserOver π Node) (again : List Node → ParserOver π (List Node))
    (nodes : List Node) : ParserOver π (List Node) := do
  skipNewlines
  match ← peekKind? with
  | none => return nodes.reverse
  | some _ => again ((← statementLine statement) :: nodes)

theorem programFrom_eq (statement : ParserOver π Node) (n : Nat) :
    programFrom statement n = iterate (programBody statement) (fun nodes => pure nodes.reverse) n := by
  induction n with
  | zero => rfl
  | succ n ih =>
    funext nodes
    simp only [programFrom, iterate, ih]
    rfl

def programLoop (statement : ParserOver π Node) : List Node → ParserOver π (List Node) :=
  loop (programBody statement) fun nodes => pure nodes.reverse

end Grammar

end BasicScript
