import BasicScript.Proofs.Evaluate.Run

/-! The limit of calls. Reaching it is a fault that nothing in a program sees or catches, so a
program that does not reach its limit does the same under any higher one. -/

set_option autoImplicit false

namespace BasicScript

def Interrupt.hitsLimit : Interrupt → Bool
  | .failed d => d.fault.kind = .recursionLimit
  | .exitFunction _ | .exitLoop _ | .nextTurn _ | .exhausted => false

namespace Interrupt

variable {x : Interrupt} {note : String}

theorem isSignal_of_hitsLimit (hits : x.hitsLimit = true) : x.isSignal = false := by
  cases x with
  | failed _ | exhausted => rfl
  | exitFunction _ | exitLoop _ | nextTurn _ => cases hits

theorem hitsLimit_withNote (hits : x.hitsLimit = true) : (x.withNote note).hitsLimit = true := by
  cases x with
  | failed _ => exact hits
  | exitFunction _ | exitLoop _ | nextTurn _ | exhausted => cases hits

end Interrupt

/-- A run beside one with a higher limit, until the first reaches its own. -/
abbrev Coupling.limited (D : Discipline) {host : Host} {limit : Nat}
    (higher : host.config.maxCallDepth ≤ limit) : Coupling D host limit :=
  .cutBy D (·.hitsLimit = true) Interrupt.isSignal_of_hitsLimit Interrupt.hitsLimit_withNote
    (.inr ⟨higher, fun _ _ _ => rfl⟩)

namespace Eval

variable {α : Type} {host : Host} {limit : Nat}

def ReachesLimit (body : Eval α) (s : Session) : Prop :=
  ∃ x t, body s = .error x t ∧ x.hitsLimit = true

/-- Where the first run does not reach its limit, the second ends in the same way. -/
theorem eq_of_not_reachesLimit {D : Discipline} {stops : Interrupt → Interrupt → Prop}
    {P : Store → α → Prop} {first second : Eval α} {s : Session}
    (agree : Agree D (·.hitsLimit = true) stops s P (first s) (second s))
    (equal : ∀ x y, stops x y → x = y) (below : ¬first.ReachesLimit s) : second s = first s :=
  ((agree.uncut below).same equal).symm

theorem interpret_limited (higher : host.config.maxCallDepth ≤ limit) (fuel : Nat)
    (nodes : List Node) (context : Context) (s : Session) :
    Agree .any (·.hitsLimit = true) Eq s Discipline.anything (interpret host fuel nodes context s)
      (interpret (host.withLimit limit) fuel nodes context s) := by
  let C : Coupling .any host limit := .limited .any higher
  have coupled : C.Coupled (evaluate host fuel) (evaluate (host.withLimit limit) fuel) :=
    Coupling.evaluate (.same fuel) (Discipline.admits_any _)
  have ready : C.Ready (.root context) context.trace s := ⟨trivial, rfl, trivial⟩
  refine (coupled.statements ready).stops_mono fun x y both => ?_
  obtain ⟨_, _, ⟨_, rfl⟩, rfl, rfl⟩ := both
  rfl

/-- A program, text or file that does not reach its limit of calls ends under any higher limit as it
does under its own: with the same values or the same fault, and in the same session. -/
theorem limit_unobserved (higher : host.config.maxCallDepth ≤ limit) (fuel : Nat) (s : Session) :
    (∀ nodes context, ¬(interpret host fuel nodes context).ReachesLimit s →
      interpret (host.withLimit limit) fuel nodes context s = interpret host fuel nodes context s) ∧
    (∀ name text, ¬(runText host fuel name text).ReachesLimit s →
      runText (host.withLimit limit) fuel name text s = runText host fuel name text s) ∧
    (∀ path nodes, ¬(runFile host fuel path nodes).ReachesLimit s →
      runFile (host.withLimit limit) fuel path nodes s = runFile host fuel path nodes s) := by
  refine ⟨fun nodes context => ?_, fun name text => ?_, fun path nodes => ?_⟩
  · exact eq_of_not_reachesLimit (interpret_limited higher fuel nodes context s) fun _ _ => id
  · have parsed : Agree .any (·.hitsLimit = true) Eq s Discipline.anything (parse name text s)
        (parse name text s) := by
      unfold parse
      cases Node.ofText name text with
      | ok nodes => exact .pure trivial trivial
      | error d => exact .throw trivial rfl trivial
    refine eq_of_not_reachesLimit (P := Discipline.anything)
      (parsed.bind fun nodes t _ _ => ?_) fun _ _ => id
    refine Agree.bind (newContext_agree name trivial) fun context u _ _ => ?_
    exact interpret_limited higher fuel nodes context u
  · refine eq_of_not_reachesLimit (D := .any) (P := Discipline.anything)
      (Agree.bind (newContext_agree path.text trivial) fun context t _ _ => ?_) fun _ _ => id
    exact Agree.within (interpret_limited higher fuel nodes context _)

theorem not_reachesLimit_of_hasValue {body : Eval α} {s : Session}
    (ended : body.hasValue s = true) : ¬body.ReachesLimit s := by
  obtain ⟨a, t, ended⟩ := ok_of_hasValue ended
  rintro ⟨x, u, failed, _⟩
  rw [ended] at failed
  cases failed

/-- One call at a time is enough for a function that calls no other. -/
theorem limit_unobserved_flat :
    let host : Host := { config := { root := ⟨"/"⟩, maxCallDepth := 1 }, files := ⟨[], []⟩ }
    let text := "FUNCTION f() RETURN 1 END\nf() + f()"
    host.config.maxCallDepth ≤ 2 ∧ ¬(runText host 6 "m" text).ReachesLimit {} ∧
      runText (host.withLimit 2) 6 "m" text {} = runText host 6 "m" text {} := by
  intro host text
  have higher : host.config.maxCallDepth ≤ 2 := by decide
  have below : ¬(runText host 6 "m" text).ReachesLimit {} :=
    not_reachesLimit_of_hasValue (by decide +kernel)
  exact ⟨higher, below, (limit_unobserved higher 6 {}).2.1 "m" text below⟩

end Eval

end BasicScript
