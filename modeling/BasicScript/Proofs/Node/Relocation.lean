import BasicScript.Node.Parser

/-! The parser does not look at spans: it copies them from the tokens into the tree, and joins them.
On tokens that have been moved to other places it gives the same tree, moved in the same way. The
same argument, without any move, shows that it does not matter how often the rules are unfolded, as
long as it is more often than there are tokens. -/

set_option autoImplicit false

namespace BasicScript

/-- A change of places that commutes with all that the parser does to them. -/
structure Relocation where
  span : Span → Span
  upTo (first last : Span) : span (first.upTo last) = (span first).upTo (span last)
  single (s : Span) : span (.single s.file s.stop) = .single (span s).file (span s).stop

def Relocation.stay : Relocation where
  span := id
  upTo _ _ := rfl
  single _ := rfl

def Relocation.forget : Relocation where
  span _ := .synthetic ""
  upTo _ _ := rfl
  single _ := rfl

def Token.relocate (g : Relocation) (token : Token) : Token :=
  { token with span := g.span token.span }

namespace Node

mutual

def relocate (g : Relocation) : Node → Node
  | .number value s => .number value (g.span s)
  | .string value s => .string value (g.span s)
  | .binary left operator right s =>
    .binary (left.relocate g) operator (right.relocate g) (g.span s)
  | .unary operator operand s => .unary operator (operand.relocate g) (g.span s)
  | .access name s => .access name (g.span s)
  | .declare name constant value s => .declare name constant (value.relocate g) (g.span s)
  | .assign name compound value s => .assign name compound (value.relocate g) (g.span s)
  | .list items s => .list (relocateAll g items) (g.span s)
  | .dictionary entries s => .dictionary (relocateEntries g entries) (g.span s)
  | .getIndex base index s => .getIndex (base.relocate g) (index.relocate g) (g.span s)
  | .setIndex base index value s =>
    .setIndex (base.relocate g) (index.relocate g) (value.relocate g) (g.span s)
  | .member base name s => .member (base.relocate g) name (g.span s)
  | .function name params body s => .function name params (relocateAll g body) (g.span s)
  | .call callee args s => .call (callee.relocate g) (relocateAll g args) (g.span s)
  | .ifElse branches otherwise s =>
    .ifElse (relocateBranches g branches) (relocateBlock g otherwise) (g.span s)
  | .whileLoop condition body s =>
    .whileLoop (condition.relocate g) (relocateAll g body) (g.span s)
  | .forLoop item itemSpan iterable body s =>
    .forLoop item (g.span itemSpan) (iterable.relocate g) (relocateAll g body) (g.span s)
  | .exitFunction none s => .exitFunction none (g.span s)
  | .exitFunction (some value) s => .exitFunction (some (value.relocate g)) (g.span s)
  | .exitLoop s => .exitLoop (g.span s)
  | .nextTurn s => .nextTurn (g.span s)
  | .importModule name binding s => .importModule (name.relocate g) binding (g.span s)
  | .range start stop step s =>
    .range (start.relocate g) (stop.relocate g) (step.relocate g) (g.span s)

def relocateAll (g : Relocation) : List Node → List Node
  | [] => []
  | node :: rest => node.relocate g :: relocateAll g rest

def relocateEntries (g : Relocation) : List (Node × Node) → List (Node × Node)
  | [] => []
  | (key, value) :: rest => (key.relocate g, value.relocate g) :: relocateEntries g rest

def relocateBranches (g : Relocation) : List (Node × List Node) → List (Node × List Node)
  | [] => []
  | (condition, body) :: rest =>
    (condition.relocate g, relocateAll g body) :: relocateBranches g rest

def relocateBlock (g : Relocation) : Option (List Node) → Option (List Node)
  | none => none
  | some body => some (relocateAll g body)

end

variable {g : Relocation}

def relocateEntry (g : Relocation) (entry : Node × Node) : Node × Node :=
  (entry.1.relocate g, entry.2.relocate g)

def relocateBranch (g : Relocation) (branch : Node × List Node) : Node × List Node :=
  (branch.1.relocate g, relocateAll g branch.2)

theorem relocateAll_eq_map (nodes : List Node) :
    relocateAll g nodes = nodes.map (relocate g) := by
  induction nodes with
  | nil => rfl
  | cons node rest ih => simp only [relocateAll, ih, List.map_cons]

theorem relocateEntries_eq_map (entries : List (Node × Node)) :
    relocateEntries g entries = entries.map (relocateEntry g) := by
  induction entries with
  | nil => rfl
  | cons entry rest ih => simp only [relocateEntries, ih, List.map_cons, relocateEntry]

theorem relocateBranches_eq_map (branches : List (Node × List Node)) :
    relocateBranches g branches = branches.map (relocateBranch g) := by
  induction branches with
  | nil => rfl
  | cons branch rest ih => simp only [relocateBranches, ih, List.map_cons, relocateBranch]

theorem relocateBlock_eq_map (body : Option (List Node)) :
    relocateBlock g body = body.map (relocateAll g) := by
  cases body <;> rfl

@[simp] theorem span_relocate (node : Node) : (node.relocate g).span = g.span node.span := by
  cases node with
  | exitFunction value s => cases value <;> rfl
  | _ => rfl

@[simp] theorem relocate_infixed (left : Node) (operator : BinaryOperator) (right : Node) :
    (infixed left operator right).relocate g =
      infixed (left.relocate g) operator (right.relocate g) := by
  simp only [infixed, relocate, span_relocate, g.upTo]

@[simp] theorem relocate_signed (sign : Span) (operator : UnaryOperator) (operand : Node) :
    (signed sign operator operand).relocate g =
      signed (g.span sign) operator (operand.relocate g) := by
  simp only [signed, relocate, span_relocate, g.upTo]

mutual

theorem relocate_stay : ∀ node : Node, node.relocate .stay = node
  | .number _ _ | .string _ _ | .access _ _ | .exitFunction none _ | .exitLoop _ | .nextTurn _ => rfl
  | .binary left _ right _ => by simp only [relocate, relocate_stay left, relocate_stay right]; rfl
  | .unary _ operand _ => by simp only [relocate, relocate_stay operand]; rfl
  | .declare _ _ value _ | .assign _ _ value _ | .exitFunction (some value) _ => by
    simp only [relocate, relocate_stay value]; rfl
  | .list items _ => by simp only [relocate, relocateAll_stay items]; rfl
  | .dictionary entries _ => by simp only [relocate, relocateEntries_stay entries]; rfl
  | .getIndex base index _ => by simp only [relocate, relocate_stay base, relocate_stay index]; rfl
  | .setIndex base index value _ => by
    simp only [relocate, relocate_stay base, relocate_stay index, relocate_stay value]; rfl
  | .member base _ _ => by simp only [relocate, relocate_stay base]; rfl
  | .function _ _ body _ => by simp only [relocate, relocateAll_stay body]; rfl
  | .call callee args _ => by
    simp only [relocate, relocate_stay callee, relocateAll_stay args]; rfl
  | .ifElse branches none _ => by
    simp only [relocate, relocateBranches_stay branches, relocateBlock]; rfl
  | .ifElse branches (some body) _ => by
    simp only [relocate, relocateBranches_stay branches, relocateBlock, relocateAll_stay body]; rfl
  | .whileLoop condition body _ => by
    simp only [relocate, relocate_stay condition, relocateAll_stay body]; rfl
  | .forLoop _ _ iterable body _ => by
    simp only [relocate, relocate_stay iterable, relocateAll_stay body]; rfl
  | .importModule name _ _ => by simp only [relocate, relocate_stay name]; rfl
  | .range start stop step _ => by
    simp only [relocate, relocate_stay start, relocate_stay stop, relocate_stay step]; rfl

theorem relocateAll_stay : ∀ nodes : List Node, relocateAll .stay nodes = nodes
  | [] => rfl
  | node :: rest => by simp only [relocateAll, relocate_stay node, relocateAll_stay rest]

theorem relocateEntries_stay : ∀ entries : List (Node × Node), relocateEntries .stay entries = entries
  | [] => rfl
  | (key, value) :: rest => by
    simp only [relocateEntries, relocate_stay key, relocate_stay value, relocateEntries_stay rest]

theorem relocateBranches_stay : ∀ branches : List (Node × List Node),
    relocateBranches .stay branches = branches
  | [] => rfl
  | (condition, body) :: rest => by
    simp only [relocateBranches, relocate_stay condition, relocateAll_stay body,
      relocateBranches_stay rest]

end

mutual

/-- A node that has been moved and then forgotten is forgotten. -/
theorem relocate_forget : ∀ node : Node, (node.relocate g).relocate .forget = node.relocate .forget
  | .number _ _ | .string _ _ | .access _ _ | .exitFunction none _ | .exitLoop _ | .nextTurn _ => rfl
  | .binary left _ right _ => by simp only [relocate, relocate_forget left, relocate_forget right]; rfl
  | .unary _ operand _ => by simp only [relocate, relocate_forget operand]; rfl
  | .declare _ _ value _ | .assign _ _ value _ | .exitFunction (some value) _ => by
    simp only [relocate, relocate_forget value]; rfl
  | .list items _ => by simp only [relocate, relocateAll_forget items]; rfl
  | .dictionary entries _ => by simp only [relocate, relocateEntries_forget entries]; rfl
  | .getIndex base index _ => by
    simp only [relocate, relocate_forget base, relocate_forget index]; rfl
  | .setIndex base index value _ => by
    simp only [relocate, relocate_forget base, relocate_forget index, relocate_forget value]; rfl
  | .member base _ _ => by simp only [relocate, relocate_forget base]; rfl
  | .function _ _ body _ => by simp only [relocate, relocateAll_forget body]; rfl
  | .call callee args _ => by
    simp only [relocate, relocate_forget callee, relocateAll_forget args]; rfl
  | .ifElse branches none _ => by
    simp only [relocate, relocateBranches_forget branches, relocateBlock]; rfl
  | .ifElse branches (some body) _ => by
    simp only [relocate, relocateBranches_forget branches, relocateBlock, relocateAll_forget body]
    rfl
  | .whileLoop condition body _ => by
    simp only [relocate, relocate_forget condition, relocateAll_forget body]; rfl
  | .forLoop _ _ iterable body _ => by
    simp only [relocate, relocate_forget iterable, relocateAll_forget body]; rfl
  | .importModule name _ _ => by simp only [relocate, relocate_forget name]; rfl
  | .range start stop step _ => by
    simp only [relocate, relocate_forget start, relocate_forget stop, relocate_forget step]; rfl

theorem relocateAll_forget : ∀ nodes : List Node,
    relocateAll .forget (relocateAll g nodes) = relocateAll .forget nodes
  | [] => rfl
  | node :: rest => by simp only [relocateAll, relocate_forget node, relocateAll_forget rest]

theorem relocateEntries_forget : ∀ entries : List (Node × Node),
    relocateEntries .forget (relocateEntries g entries) = relocateEntries .forget entries
  | [] => rfl
  | (key, value) :: rest => by
    simp only [relocateEntries, relocate_forget key, relocate_forget value,
      relocateEntries_forget rest]

theorem relocateBranches_forget : ∀ branches : List (Node × List Node),
    relocateBranches .forget (relocateBranches g branches) = relocateBranches .forget branches
  | [] => rfl
  | (condition, body) :: rest => by
    simp only [relocateBranches, relocate_forget condition, relocateAll_forget body,
      relocateBranches_forget rest]

end

end Node

end BasicScript
