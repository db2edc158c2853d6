import BasicScript.Node

/-! Tame nodes. Three kinds of nodes can keep a program from its end or a value from being finite: a
loop with a condition, an assignment to an index, and an access to what may be the method that
appends to a list. In a tame node there is none of them. -/

set_option autoImplicit false

namespace BasicScript.Node

mutual

/-- Neither the node nor any node in it loops on a condition, assigns to an index or accesses an
attribute named `append`. -/
def tame : Node → Bool
  | .number _ _ | .string _ _ | .access _ _ | .exitLoop _ | .nextTurn _ => true
  | .binary left _ right _ => left.tame && right.tame
  | .unary _ operand _ => operand.tame
  | .declare _ _ value _ | .assign _ _ value _ => value.tame
  | .list items _ => allTame items
  | .dictionary entries _ => allTameEntries entries
  | .getIndex base index _ => base.tame && index.tame
  | .setIndex _ _ _ _ => false
  | .member base name _ => !(name == "append") && base.tame
  | .function _ _ body _ => allTame body
  | .call callee args _ => callee.tame && allTame args
  | .ifElse branches otherwise _ => allTameBranches branches && tameBlock otherwise
  | .whileLoop _ _ _ => false
  | .forLoop _ _ iterable body _ => iterable.tame && allTame body
  | .exitFunction none _ => true
  | .exitFunction (some value) _ => value.tame
  | .importModule name _ _ => name.tame
  | .range start stop step _ => start.tame && stop.tame && step.tame

def allTame : List Node → Bool
  | [] => true
  | node :: rest => node.tame && allTame rest

def allTameEntries : List (Node × Node) → Bool
  | [] => true
  | (key, value) :: rest => key.tame && value.tame && allTameEntries rest

def allTameBranches : List (Node × List Node) → Bool
  | [] => true
  | (condition, body) :: rest => condition.tame && allTame body && allTameBranches rest

def tameBlock : Option (List Node) → Bool
  | none => true
  | some body => allTame body

end

theorem allTame_iff {nodes : List Node} : allTame nodes = true ↔ ∀ node ∈ nodes, node.tame = true := by
  induction nodes with
  | nil => simp [allTame]
  | cons node rest ih => simp [allTame, ih]

theorem allTameEntries_iff {entries : List (Node × Node)} : allTameEntries entries = true ↔
    ∀ entry ∈ entries, entry.1.tame = true ∧ entry.2.tame = true := by
  induction entries with
  | nil => simp [allTameEntries]
  | cons entry rest ih => simp [allTameEntries, ih]

theorem allTameBranches_iff {branches : List (Node × List Node)} : allTameBranches branches = true ↔
    ∀ branch ∈ branches, branch.1.tame = true ∧ allTame branch.2 = true := by
  induction branches with
  | nil => simp [allTameBranches]
  | cons branch rest ih => simp [allTameBranches, ih]

end BasicScript.Node
