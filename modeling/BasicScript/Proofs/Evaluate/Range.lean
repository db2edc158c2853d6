import BasicScript.Evaluate
import BasicScript.Proofs.Evaluate.Traversal

/-! Ranges as arithmetic progressions. The loop that lists a range computes on 64-bit integers and
ends in front of the stop, or where the next integer would not fit. Its members, as exact integers,
are the start and every further step in front of the stop: an integer that does not fit lies behind
the stop. -/

set_option autoImplicit false

namespace BasicScript

namespace Range

def Before (step stop i : Int) : Prop := if 0 < step then i < stop else stop < i

instance (step stop i : Int) : Decidable (Before step stop i) :=
  inferInstanceAs (Decidable (if 0 < step then i < stop else stop < i))

/-- Behind the end of a range, no step leads back. -/
theorem not_before_later {step stop i : Int} (past : ¬Before step stop i) (k : Nat) :
    ¬Before step stop (i + k * step) := by
  unfold Before at past ⊢
  by_cases up : 0 < step
  · rw [if_pos up] at past ⊢
    have : 0 ≤ k * step := Int.mul_nonneg (Int.natCast_nonneg k) (Int.le_of_lt up)
    omega
  · rw [if_neg up] at past ⊢
    have : k * step ≤ 0 := Int.mul_nonpos_of_nonneg_of_nonpos (Int.natCast_nonneg k) (by omega)
    omega

variable {stop step current : Int64}

theorem before_iff (moves : step ≠ 0) : Before step.toInt stop.toInt current.toInt ↔
    0 < step ∧ current < stop ∨ step < 0 ∧ stop < current := by
  have : step.toInt ≠ 0 := fun zero => moves (Int64.toInt_inj.mp zero)
  simp only [Before, Int64.lt_iff_toInt_lt, Int64.toInt_zero]
  split <;> omega

/-- An integer that does not fit comes behind the end of the range. -/
theorem not_before_of_ofInt?_eq_none (large : Number.ofInt? (current.toInt + step.toInt) = none) :
    ¬Before step.toInt stop.toInt (current.toInt + step.toInt) := by
  rw [Number.ofInt?_eq_none] at large
  have := current.le_toInt
  have := current.toInt_lt
  have := stop.le_toInt
  have := stop.toInt_lt
  unfold Before
  split <;> omega

/-- The integers `members` are the progression from `start` on up to the end of the range. -/
structure Lists (start stop step : Int64) (members : List Int64) : Prop where
  exact : members.map Int64.toInt =
    (List.range members.length).map fun (k : Nat) => start.toInt + k * step.toInt
  ends (k : Nat) : k < members.length ↔ Before step.toInt stop.toInt (start.toInt + k * step.toInt)

namespace Lists

theorem nil {start : Int64} (past : ¬Before step.toInt stop.toInt start.toInt) :
    Lists start stop step [] where
  exact := rfl
  ends k := iff_of_false (Nat.not_lt_zero k) (not_before_later past k)

/-- One more member in front of a progression. The next integer may fail to fit, if it would come
behind the end. -/
theorem cons {start : Int64} {members : List Int64}
    (first : Before step.toInt stop.toInt start.toInt)
    (exact : members.map Int64.toInt =
      (List.range members.length).map fun (k : Nat) => start.toInt + step.toInt + k * step.toInt)
    (ends : ∀ k : Nat, k < members.length ↔
      Before step.toInt stop.toInt (start.toInt + step.toInt + k * step.toInt)) :
    Lists start stop step (start :: members) := by
  have later (k : Nat) : start.toInt + step.toInt + k * step.toInt =
      start.toInt + (k + 1 : Nat) * step.toInt := by
    rw [Int.natCast_succ, Int.add_mul, Int.one_mul]
    omega
  simp only [later] at exact ends
  refine ⟨?_, fun k => ?_⟩
  · rw [List.map_cons, exact, List.length_cons, List.range_succ_eq_map, List.map_cons, List.map_map]
    congr 1
    simp
  · cases k with
    | zero => simpa using first
    | succ k => rw [List.length_cons, Nat.add_lt_add_iff_right, ends]

end Lists

/-- The loop lists the progression. -/
theorem fill_lists (stop : Int64) (moves : step ≠ 0) (start : Int64) (items : Array Value) :
    ∃ members, Lists start stop step members ∧
      fill stop step start items = items ++ (members.map Value.ofInt64).toArray := by
  fun_induction fill stop step start items with
  | case1 start items ahead items' next found ih =>
    obtain ⟨members, listed, same⟩ := ih
    have := Number.ofInt?_eq_some.mp found
    refine ⟨start :: members, .cons ((before_iff moves).mpr ahead) ?_ ?_, ?_⟩
    · rw [← this]; exact listed.exact
    · rw [← this]; exact listed.ends
    · rw [same]; simp [items']
  | case2 start items ahead items' large =>
    refine ⟨[start], .cons ((before_iff moves).mpr ahead) rfl fun k => ?_, by simp [items']⟩
    exact iff_of_false (Nat.not_lt_zero k) (not_before_later (not_before_of_ofInt?_eq_none large) k)
  | case3 start items past =>
    exact ⟨[], .nil (mt (before_iff moves).mp past), by simp⟩

end Range

namespace Evaluator

variable {host : Host} {fuel : Nat} {frame : Frame} {node : Node} {s t : Session} {n : Int64}

theorem bound_of_int (found : evaluate host fuel node frame s = .ok (.ofInt64 n) t) :
    bound (evaluate host fuel) frame node s = .ok n t := bind_of_ok found

/-- A range whose bounds are integers. With a step other than zero it ends, with a new list of the
progression's members; these are exact, and as many as come in front of the end. With the step zero
it is a fault, whatever the other bounds are. -/
theorem range_progresses (host : Host) (fuel : Nat) (frame : Frame) (first last stride : Node)
    (span : Span) {start stop step : Int64} {s t u v : Session}
    (starts : evaluate host fuel first frame s = .ok (.ofInt64 start) t)
    (stops : evaluate host fuel last frame t = .ok (.ofInt64 stop) u)
    (steps : evaluate host fuel stride frame u = .ok (.ofInt64 step) v) :
    let range := evaluate host (fuel + 1) (.range first last stride span) frame s
    (step = 0 → range = .error (.failed ⟨.zeroStep, span, frame.trace, []⟩) v ∧
      Fault.zeroStep.kind = .valueError) ∧
    (step ≠ 0 → ∃ members, Range.Lists start stop step members ∧
      range = .ok (.list v.world.store.lists.size)
        (v.withStore (v.world.store.addList (members.map Value.ofInt64).toArray).2)) := by
  intro range
  have bounded : range = (do
      if step = 0 then Eval.fail frame .zeroStep span
      Eval.change (·.addList (Range.fill stop step start #[])) : Eval Value) v := by
    simp only [range, evaluate, Evaluator.step, Evaluator.range]
    rw [bind_of_ok (bound_of_int starts), bind_of_ok (bound_of_int stops),
      bind_of_ok (bound_of_int steps)]
  constructor
  · rintro rfl
    exact ⟨bounded, rfl⟩
  · intro moves
    obtain ⟨members, listed, filled⟩ := Range.fill_lists stop moves start #[]
    refine ⟨members, listed, ?_⟩
    rw [bounded, if_neg moves, filled, Array.empty_append]
    rfl

/-- The least integer as the step and as the stop. It is itself left out, and the integer behind the
last member does not fit. -/
theorem range_progresses_least :
    let integer (n : Int64) : Node := .number (.int n) default
    let store : Store := { lists := #[#[.ofInt64 5, .ofInt64 (-9223372036854775803)]] }
    evaluate default 2 (.range (integer 5) (integer Int64.minValue) (integer Int64.minValue) default)
      default {} = .ok (.list 0) { world := { store } } := by
  intro integer store
  obtain ⟨members, listed, done⟩ := (range_progresses default 1 default (integer 5)
    (integer Int64.minValue) (integer Int64.minValue) default (s := {}) rfl rfl rfl).2 (by decide)
  have second : 1 < members.length := (listed.ends 1).mpr (by decide)
  have third : ¬2 < members.length := mt (listed.ends 2).mp (by decide)
  have exact := listed.exact
  rw [show members.length = 2 by omega] at exact
  have same : members = [5, -9223372036854775803] :=
    List.map_injective_iff.mpr (fun _ _ => Int64.toInt_inj.mp) exact
  rw [done, same]
  rfl

end Evaluator

end BasicScript
