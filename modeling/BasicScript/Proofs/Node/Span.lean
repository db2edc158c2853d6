import BasicScript.Node
import BasicScript.Proofs.Token.Tiling

/-! Spans of nodes. The parts of a node lie one behind the other inside of its span. A node whose
span goes from the first to the last of some stretches of the text in order has its parts in order
as soon as their spans are among these stretches. -/

set_option autoImplicit false

namespace BasicScript

namespace Span

/-- A stretch of a text: its ends have the lines and columns of the text, and it does not end before
it starts. -/
structure IsIn (file : SourceFile) (span : Span) : Prop where
  ofFile : span.file = file
  start : span.start.Marks file.text.toList
  stop : span.stop.Marks file.text.toList
  start_le_stop : span.start.index ≤ span.stop.index

structure InOrder (file : SourceFile) (lo hi : Nat) (spans : List Span) : Prop where
  le : lo ≤ hi
  isIn : ∀ span ∈ spans, span.IsIn file
  above : ∀ span ∈ spans, lo ≤ span.start.index
  below : ∀ span ∈ spans, span.stop.index ≤ hi
  ordered : spans.Pairwise fun first second => first.stop.index ≤ second.start.index

namespace InOrder

variable {file : SourceFile} {lo mid hi : Nat} {first last span : Span} {spans others : List Span}

theorem nil (le : lo ≤ hi) : InOrder file lo hi [] :=
  ⟨le, List.forall_mem_nil _, List.forall_mem_nil _, List.forall_mem_nil _, .nil⟩

theorem singleton (isIn : span.IsIn file) (above : lo ≤ span.start.index)
    (below : span.stop.index ≤ hi) : InOrder file lo hi [span] :=
  ⟨Nat.le_trans above (Nat.le_trans isIn.start_le_stop below), by simpa using isIn,
    by simpa using above, by simpa using below, List.pairwise_singleton _ _⟩

theorem append (before : InOrder file lo mid spans) (behind : InOrder file mid hi others) :
    InOrder file lo hi (spans ++ others) where
  le := Nat.le_trans before.le behind.le
  isIn := List.forall_mem_append.mpr ⟨before.isIn, behind.isIn⟩
  above := List.forall_mem_append.mpr
    ⟨before.above, fun span inside => Nat.le_trans before.le (behind.above span inside)⟩
  below := List.forall_mem_append.mpr
    ⟨fun span inside => Nat.le_trans (before.below span inside) behind.le, behind.below⟩
  ordered := List.pairwise_append.mpr ⟨before.ordered, behind.ordered, fun first inside second within =>
    Nat.le_trans (before.below first inside) (behind.above second within)⟩

theorem mono {lo' hi' : Nat} (order : InOrder file lo hi spans) (start : lo' ≤ lo)
    (stop : hi ≤ hi') : InOrder file lo' hi' spans :=
  ⟨Nat.le_trans start (Nat.le_trans order.le stop), order.isIn,
    fun span inside => Nat.le_trans start (order.above span inside),
    fun span inside => Nat.le_trans (order.below span inside) stop, order.ordered⟩

theorem sublist (order : InOrder file lo hi spans) (part : others.Sublist spans) :
    InOrder file lo hi others :=
  ⟨order.le, fun span inside => order.isIn span (part.subset inside),
    fun span inside => order.above span (part.subset inside),
    fun span inside => order.below span (part.subset inside), order.ordered.sublist part⟩

theorem tail (order : InOrder file lo hi (first :: spans)) :
    InOrder file first.stop.index hi spans :=
  ⟨order.below first List.mem_cons_self, fun span inside => order.isIn span (.tail _ inside),
    fun _ => List.rel_of_pairwise_cons order.ordered, fun span inside => order.below span (.tail _ inside),
    order.ordered.of_cons⟩

theorem head (order : InOrder file lo hi (first :: spans)) : InOrder file lo hi [first] :=
  order.sublist (List.singleton_sublist.mpr List.mem_cons_self)

theorem upTo (order : InOrder file lo hi (first :: spans ++ [last])) :
    (first.upTo last).IsIn file ∧
      InOrder file first.start.index last.stop.index (first :: spans ++ [last]) := by
  have opens : first ∈ first :: spans ++ [last] := List.mem_cons_self
  have closes : last ∈ first :: spans ++ [last] := List.mem_append_right _ (List.mem_singleton_self _)
  have start := order.isIn first opens
  have stop := order.isIn last closes
  have apart : first.stop.index ≤ last.start.index :=
    List.rel_of_pairwise_cons order.ordered (List.mem_append_right _ (List.mem_singleton_self _))
  have le : first.start.index ≤ last.stop.index :=
    Nat.le_trans start.start_le_stop (Nat.le_trans apart stop.start_le_stop)
  refine ⟨⟨start.ofFile, start.start, stop.stop, le⟩, le, order.isIn, ?_, ?_, order.ordered⟩
  · refine List.forall_mem_cons.mpr ⟨Nat.le_refl _, fun span inside => ?_⟩
    exact Nat.le_trans start.start_le_stop (List.rel_of_pairwise_cons order.ordered inside)
  · refine List.forall_mem_append.mpr ⟨fun span inside => ?_, by simp⟩
    have before := (List.pairwise_append.mp order.ordered).2.2 span inside last (List.mem_singleton_self _)
    exact Nat.le_trans before stop.start_le_stop

end InOrder

end Span

namespace Node

/-- The nodes that a node is made of, in the order of the source. -/
def children : Node → List Node
  | .number _ _ | .string _ _ | .access _ _ | .exitLoop _ | .nextTurn _ => []
  | .binary left _ right _ => [left, right]
  | .unary _ operand _ => [operand]
  | .declare _ _ value _ | .assign _ _ value _ => [value]
  | .list items _ => items
  | .dictionary entries _ => entries.flatMap fun entry => [entry.1, entry.2]
  | .getIndex base index _ => [base, index]
  | .setIndex base index value _ => [base, index, value]
  | .member base _ _ => [base]
  | .function _ _ body _ => body
  | .call callee args _ => callee :: args
  | .ifElse branches otherwise _ =>
    (branches.flatMap fun branch => branch.1 :: branch.2) ++ otherwise.getD []
  | .whileLoop condition body _ => condition :: body
  | .forLoop _ _ iterable body _ => iterable :: body
  | .exitFunction value _ => value.toList
  | .importModule name _ _ => [name]
  | .range start stop step _ => [start, stop, step]

/-- The spans of the parts of a node: of its children, and of the variable of a loop. -/
def parts (node : Node) : List Span :=
  match node with
  | .forLoop _ itemSpan _ _ _ => itemSpan :: node.children.map span
  | _ => node.children.map span

inductive Within : Node → Node → Prop
  | root (root : Node) : Within root root
  | child {node child root : Node} (inside : child ∈ root.children) (within : Within node child) :
    Within node root

/-- The parts of a node lie one behind the other inside of its span. -/
structure Encloses (file : SourceFile) (node : Node) : Prop where
  span : node.span.IsIn file
  parts : Span.InOrder file node.span.start.index node.span.stop.index node.parts

structure InOrder (file : SourceFile) (lo hi : Nat) (nodes : List Node) : Prop where
  spans : Span.InOrder file lo hi (nodes.map span)
  encloses : ∀ root ∈ nodes, ∀ node, Within node root → node.Encloses file

namespace InOrder

variable {file : SourceFile} {lo mid hi : Nat} {first last : Span} {node : Node}
  {nodes others : List Node} {between : List Span}

theorem nil (le : lo ≤ hi) : InOrder file lo hi [] := ⟨.nil le, List.forall_mem_nil _⟩

theorem append (before : InOrder file lo mid nodes) (behind : InOrder file mid hi others) :
    InOrder file lo hi (nodes ++ others) :=
  ⟨List.map_append ▸ before.spans.append behind.spans,
    List.forall_mem_append.mpr ⟨before.encloses, behind.encloses⟩⟩

theorem mono {lo' hi' : Nat} (order : InOrder file lo hi nodes) (start : lo' ≤ lo)
    (stop : hi ≤ hi') : InOrder file lo' hi' nodes :=
  ⟨order.spans.mono start stop, order.encloses⟩

/-- A node encloses its parts if it does so itself and its children do. -/
theorem single (encloses : node.Encloses file) (start : lo ≤ node.span.start.index)
    (stop : node.span.stop.index ≤ hi)
    (children : ∀ root ∈ node.children, ∀ node, Within node root → node.Encloses file) :
    InOrder file lo hi [node] := by
  refine ⟨.singleton encloses.span start stop, ?_⟩
  rintro root single other within
  obtain rfl := List.mem_singleton.mp single
  cases within with
  | root => exact encloses
  | child inside within => exact children _ inside other within

theorem leaf (span : Span.InOrder file lo hi [node.span]) (childless : node.children = [])
    (partless : node.parts = []) : InOrder file lo hi [node] := by
  have isIn := span.isIn node.span (List.mem_singleton_self _)
  refine .single ⟨isIn, partless ▸ .nil isIn.start_le_stop⟩ (span.above _ (List.mem_singleton_self _))
    (span.below _ (List.mem_singleton_self _)) ?_
  rw [childless]
  exact List.forall_mem_nil _

theorem upTo (order : Span.InOrder file lo hi (first :: between ++ [last]))
    (spans : node.span = first.upTo last) (parts : node.parts.Sublist (first :: between ++ [last]))
    (children : ∀ root ∈ node.children, ∀ node, Within node root → node.Encloses file) :
    InOrder file lo hi [node] := by
  obtain ⟨isIn, tight⟩ := order.upTo
  refine .single ⟨spans ▸ isIn, spans ▸ tight.sublist parts⟩ ?_ ?_ children
  · rw [spans]
    exact order.above first List.mem_cons_self
  · rw [spans]
    exact order.below last (List.mem_append_right _ (List.mem_singleton_self _))

theorem closed (opens : Span.InOrder file lo mid [first]) {hi' : Nat}
    (inner : InOrder file mid hi' node.children) (closes : Span.InOrder file hi' hi [last])
    (spans : node.span = first.upTo last) (parts : node.parts = node.children.map span) :
    InOrder file lo hi [node] := by
  have order : Span.InOrder file lo hi (first :: node.children.map span ++ [last]) :=
    opens.append (inner.spans.append closes)
  exact .upTo order spans (parts ▸ (List.sublist_append_left _ _).cons _) inner.encloses

theorem opened (opens : Span.InOrder file lo mid [first]) {value : Node}
    (inner : InOrder file mid hi [value]) (only : node.children = [value])
    (spans : node.span = first.upTo value.span) (parts : node.parts = node.children.map span) :
    InOrder file lo hi [node] := by
  have order : Span.InOrder file lo hi (first :: [] ++ [value.span]) := opens.append inner.spans
  refine .upTo order spans ?_ (only ▸ inner.encloses)
  rw [parts, only]
  exact List.sublist_append_right [first] [value.span]

theorem led {child : Node} {mid' : Nat} (leads : InOrder file lo mid [child])
    (inner : Span.InOrder file mid mid' between) (closes : Span.InOrder file mid' hi [last])
    (spans : node.span = child.span.upTo last)
    (parts : node.parts.Sublist (child.span :: between ++ [last]))
    (children : ∀ root ∈ node.children, ∀ node, Within node root → node.Encloses file) :
    InOrder file lo hi [node] := by
  have order : Span.InOrder file lo hi (child.span :: between ++ [last]) :=
    leads.spans.append (inner.append closes)
  exact .upTo order spans parts children

end InOrder

end Node

end BasicScript
