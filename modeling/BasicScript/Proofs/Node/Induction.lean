import BasicScript.Node

/-! Induction over a syntax tree: a property holds of every node when it holds of a node whose parts
all have it, whether they are operands, items, entries, branches or statements of a block. -/

set_option autoImplicit false

namespace BasicScript.Node

theorem induct {motive : Node → Prop}
    (number : ∀ value s, motive (.number value s))
    (string : ∀ value s, motive (.string value s))
    (binary : ∀ left operator right s, motive left → motive right →
      motive (.binary left operator right s))
    (unary : ∀ operator operand s, motive operand → motive (.unary operator operand s))
    (access : ∀ name s, motive (.access name s))
    (declare : ∀ name constant value s, motive value → motive (.declare name constant value s))
    (assign : ∀ name compound value s, motive value → motive (.assign name compound value s))
    (list : ∀ items s, (∀ node ∈ items, motive node) → motive (.list items s))
    (dictionary : ∀ entries s, (∀ entry ∈ entries, motive entry.1 ∧ motive entry.2) →
      motive (.dictionary entries s))
    (getIndex : ∀ base index s, motive base → motive index → motive (.getIndex base index s))
    (setIndex : ∀ base index value s, motive base → motive index → motive value →
      motive (.setIndex base index value s))
    (member : ∀ base name s, motive base → motive (.member base name s))
    (function : ∀ name params body s, (∀ node ∈ body, motive node) →
      motive (.function name params body s))
    (call : ∀ callee args s, motive callee → (∀ node ∈ args, motive node) →
      motive (.call callee args s))
    (ifElse : ∀ branches otherwise s,
      (∀ branch ∈ branches, motive branch.1 ∧ ∀ node ∈ branch.2, motive node) →
      (∀ body ∈ otherwise, ∀ node ∈ body, motive node) → motive (.ifElse branches otherwise s))
    (whileLoop : ∀ condition body s, motive condition → (∀ node ∈ body, motive node) →
      motive (.whileLoop condition body s))
    (forLoop : ∀ item itemSpan iterable body s, motive iterable → (∀ node ∈ body, motive node) →
      motive (.forLoop item itemSpan iterable body s))
    (exitFunction : ∀ value s, (∀ node ∈ value, motive node) → motive (.exitFunction value s))
    (exitLoop : ∀ s, motive (.exitLoop s))
    (nextTurn : ∀ s, motive (.nextTurn s))
    (importModule : ∀ name binding s, motive name → motive (.importModule name binding s))
    (range : ∀ start stop step s, motive start → motive stop → motive step →
      motive (.range start stop step s))
    (node : Node) : motive node :=
  @Node.rec motive (fun nodes => ∀ node ∈ nodes, motive node)
    (fun entries => ∀ entry ∈ entries, motive entry.1 ∧ motive entry.2)
    (fun branches => ∀ branch ∈ branches, motive branch.1 ∧ ∀ node ∈ branch.2, motive node)
    (fun otherwise => ∀ body ∈ otherwise, ∀ node ∈ body, motive node)
    (fun value => ∀ node ∈ value, motive node)
    (fun entry => motive entry.1 ∧ motive entry.2)
    (fun branch => motive branch.1 ∧ ∀ node ∈ branch.2, motive node)
    number string binary unary access declare assign list dictionary getIndex setIndex member
    function call ifElse whileLoop forLoop exitFunction exitLoop nextTurn importModule range
    (fun _ none => absurd none List.not_mem_nil)
    (fun _ _ first rest => List.forall_mem_cons.mpr ⟨first, rest⟩)
    (fun _ none => absurd none List.not_mem_nil)
    (fun _ _ first rest => List.forall_mem_cons.mpr ⟨first, rest⟩)
    (fun _ none => absurd none List.not_mem_nil)
    (fun _ _ first rest => List.forall_mem_cons.mpr ⟨first, rest⟩)
    (fun _ none => nomatch none)
    (fun _ body _ same => Option.some.inj same ▸ body)
    (fun _ none => nomatch none)
    (fun _ value _ same => Option.some.inj same ▸ value)
    (fun _ _ key value => ⟨key, value⟩)
    (fun _ _ condition body => ⟨condition, body⟩)
    node

end BasicScript.Node
