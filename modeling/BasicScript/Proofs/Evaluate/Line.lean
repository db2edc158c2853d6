import BasicScript.Proofs.Evaluate.Likeness
import BasicScript.Proofs.Evaluate.Trace
import BasicScript.Proofs.Node.Line

/-! Running line by line. A text may be given to an interpreter in pieces that end at line breaks:
each piece is parsed alone and run in the scope that the pieces above have left, and all that
differs is where the nodes are said to stand. -/

set_option autoImplicit false

namespace BasicScript

namespace Evaluator

variable (e : Evaluator) (frame : Frame)

theorem values_append (xs ys : List Node) (found : Array Value) :
    e.values frame (xs ++ ys) found = e.values frame xs found >>= e.values frame ys := by
  induction xs generalizing found with
  | nil => rfl
  | cons node rest ih => simp only [List.cons_append, values, ih, bind_assoc]

theorem values_behind (nodes : List Node) (found more : Array Value) :
    e.values frame nodes (found ++ more) = (found ++ ·) <$> e.values frame nodes more := by
  induction nodes generalizing more with
  | nil => rfl
  | cons node rest ih => simp only [values, ← Array.append_push, ih, map_bind]

/-- Statements behind others: a fault of the first is the fault of all, and else the values of both
are those of all. -/
theorem statements_append (xs ys : List Node) :
    e.statements frame (xs ++ ys) = (do
      let above ← e.statements frame xs
      let below ← e.statements frame ys
      return above ++ below) := by
  have behind (found : Array Value) : e.values frame ys found =
      (found ++ ·) <$> e.values frame ys #[] := by
    simpa only [Array.append_empty] using e.values_behind frame ys found #[]
  have values : (do return (← e.values frame (xs ++ ys) #[]).toList : Eval (List Value)) = (do
      let above ← (do return (← e.values frame xs #[]).toList)
      let below ← (do return (← e.values frame ys #[]).toList)
      return above ++ below) := by
    rw [values_append]
    simp only [bind_assoc, pure_bind]
    refine bind_congr fun above => ?_
    rw [behind above]
    simp only [bind_map_left, Array.toList_append]
  -- an interrupt escapes where its own list ends as it does at the end of both
  unfold statements
  rw [values, Eval.mapInterrupt_bind]
  refine bind_congr fun above => ?_
  rw [Eval.mapInterrupt_bind]
  rfl

end Evaluator

namespace Eval

open Node

theorem interpret_relocate (host : Host) (fuel : Nat) (g : Relocation) (nodes : List Node)
    (context : Context) : Eval.Same (interpret host fuel (nodes.map (relocate g)) context)
      (interpret host fuel nodes context) := by
  refine (Evaluator.Blind.evaluate host fuel).statements ?_
  rw [← relocateAll_eq_map, relocateAll_forget]

/-- Two texts that can be parsed can be parsed one below the other. The statements are those of
both, of which the second stand further on by the characters and lines above them. To run them all
is to run those of the first text and, if these succeed, those of the second in the same context: it
gives the values of both, or the same fault, trace and notes, and the same output, and it leaves the
same behind. Only the places that faults and functions come from tell the two runs apart. -/
theorem interpret_line {first second above below : String} {upper lower : List Node}
    (upperDone : Node.ofText first above = .ok upper)
    (lowerDone : Node.ofText second below = .ok lower) (name : String) :
    ∃ nodes, Node.ofText name (above ++ "\n" ++ below) = .ok nodes ∧
      nodes = upper.map (relocate (.toAbove name above below)) ++
        lower.map (relocate (.toBelow name above below)) ∧
      ∀ (host : Host) (fuel : Nat) (context : Context) (s : Session),
        SameEnd (interpret host fuel nodes context s)
          ((do
            let above ← interpret host fuel upper context
            let below ← interpret host fuel lower context
            return above ++ below) s) := by
  refine ⟨_, ofText_line upperDone lowerDone name, rfl, fun host fuel context s => ?_⟩
  rw [interpret, Evaluator.statements_append]
  exact Same.bind (interpret_relocate host fuel _ upper context) (fun _ =>
    .bind (interpret_relocate host fuel _ lower context) fun _ => .pure _) (.refl s)

/-- A variable that a line declares and the line below it uses. -/
theorem interpret_line_let : ∃ upper lower nodes,
    Node.ofText "first" "LET x = 1" = .ok upper ∧ Node.ofText "second" "x + 1" = .ok lower ∧
      Node.ofText "both" "LET x = 1\nx + 1" = .ok nodes ∧
      ∀ (host : Host) (fuel : Nat) (context : Context) (s : Session),
        SameEnd (interpret host fuel nodes context s)
          ((do
            let above ← interpret host fuel upper context
            let below ← interpret host fuel lower context
            return above ++ below) s) := by
  have parses (name text : String) (ok : (Node.ofText name text).isOk = true) :
      ∃ nodes, Node.ofText name text = .ok nodes := by
    cases done : Node.ofText name text with
    | ok nodes => exact ⟨nodes, rfl⟩
    | error d =>
      rw [done] at ok
      cases ok
  obtain ⟨upper, upperDone⟩ := parses "first" "LET x = 1" (by decide +kernel)
  obtain ⟨lower, lowerDone⟩ := parses "second" "x + 1" (by decide +kernel)
  obtain ⟨nodes, done, _, same⟩ := interpret_line upperDone lowerDone "both"
  exact ⟨upper, lower, nodes, upperDone, lowerDone, done, same⟩

end Eval

end BasicScript
