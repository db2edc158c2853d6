import BasicScript.BuiltIn.Call

/-! What operations on values refuse. Each of their faults belongs to the running of a program;
faults of scanning and parsing come from texts alone. -/

set_option autoImplicit false

namespace BasicScript

def Fault.IsRuntime (fault : Fault) : Prop := fault.kind.phase = .runtime

def Refuses {α : Type} (result : Except Fault α) : Prop :=
  ∀ fault, result = .error fault → fault.IsRuntime

namespace Refuses

variable {α β : Type}

theorem ok (a : α) : Refuses (.ok a) := nofun

theorem error {fault : Fault} (atRuntime : fault.IsRuntime) :
    Refuses (.error fault : Except Fault α) := by
  rintro _ ⟨⟩
  exact atRuntime

theorem bind {r : Except Fault α} {k : α → Except Fault β} (first : Refuses r)
    (rest : ∀ a, Refuses (k a)) : Refuses (r >>= k) := by
  cases r with
  | ok a => exact rest a
  | error fault => exact error (first fault rfl)

theorem map {r : Except Fault α} {f : α → β} (refuses : Refuses r) : Refuses (f <$> r) := by
  cases r with
  | ok a => exact ok (f a)
  | error fault => exact error (refuses fault rfl)

end Refuses

namespace Number

variable (a b : Number)

theorem refuses_div : Refuses (a.div b) := by
  unfold div
  split
  · exact .error rfl
  · exact .ok _

theorem refuses_rem : Refuses (a.rem b) := by
  unfold rem
  split
  · exact .error rfl
  · exact .ok _

theorem refuses_floatPower : Refuses (a.floatPower b) := by
  unfold floatPower
  dsimp only
  split
  · exact .error rfl
  · split
    · exact .error rfl
    · exact .ok _

theorem refuses_pow : Refuses (a.pow b) := by
  unfold pow
  split
  · split
    · exact .ok _
    · exact refuses_floatPower _ _
  · exact refuses_floatPower _ _

theorem refuses_sqrt : Refuses a.sqrt := by
  unfold sqrt
  split
  · exact .error rfl
  · exact .ok _

end Number

namespace Value

variable {a b v : Value} {operator : BinaryOperator}

theorem refuses_arithmetic {onNumbers : Number → Number → Except Fault Number}
    (refuses : ∀ m n, Refuses (onNumbers m n)) : Refuses (arithmetic operator onNumbers a b) := by
  unfold arithmetic
  split
  · exact (refuses _ _).map
  · exact .error rfl

theorem refuses_repeatText (text : String) (count : Int64) : Refuses (repeatText text count) := by
  unfold repeatText
  dsimp only
  split
  · exact .ok _
  · exact .error rfl

theorem refuses_multiply : Refuses (multiply a b) := by
  unfold multiply
  split
  · split
    · exact refuses_repeatText _ _
    · exact .error rfl
  · split
    · exact refuses_repeatText _ _
    · exact .error rfl
  · exact refuses_arithmetic fun _ _ => .ok _

theorem refuses_compare {test : Number → Number → Bool} : Refuses (compare operator test a b) := by
  unfold compare
  split
  · exact .ok _
  · exact .error rfl

theorem refuses_unary {operator : UnaryOperator} {onNumber : Number → Number} :
    Refuses (v.unary operator onNumber) := by
  unfold unary
  split
  · exact .ok _
  · exact .error rfl

theorem refuses_position {container : ValueType} {length : Nat} :
    Refuses (v.position container length) := by
  unfold position
  split
  · split
    · exact .ok _
    · exact .error rfl
  · exact .error rfl

theorem refuses_toNumber : Refuses v.toNumber := by
  unfold toNumber
  split
  · exact .ok _
  · exact .ok _
  · split
    · exact .ok _
    · exact .error rfl
  · exact .error rfl

end Value

namespace Store

variable {s : Store} {v : Value}

theorem refuses_truth : Refuses (s.truth v) := by
  unfold truth
  split <;> first | exact .ok _ | exact .error rfl

theorem refuses_unary {operator : UnaryOperator} : Refuses (s.unary operator v) := by
  cases operator with
  | plus | negate => exact Value.refuses_unary
  | not => exact refuses_truth.map

theorem refuses_lookup {h : Handle} {name : String} : Refuses (s.lookup h name) := by
  unfold lookup
  split
  · exact .ok _
  · exact .error rfl

theorem refuses_getItem {index : Value} : Refuses (s.getItem v index) := by
  unfold getItem
  split
  · exact Value.refuses_position.bind fun _ => .ok _
  · exact Value.refuses_position.bind fun _ => .ok _
  · split
    · exact .ok _
    · exact .error rfl
  · exact .error rfl

end Store

theorem Arity.refuses_check (arity : Arity) (function : String) (count : Nat) :
    Refuses (arity.check function count) := by
  unfold check
  split
  · exact .ok _
  · exact .error rfl

namespace BuiltIn

theorem refuses_numbers (function : String) (args : List Value) :
    Refuses (numbers function args) := by
  fun_induction numbers function args with
  | case1 => exact .ok _
  | case2 n rest ih => exact ih.map
  | case3 => exact .error rfl

theorem refuses_math (function : MathFunction) (args : List Number) :
    Refuses (math function args) := by
  unfold math
  split <;> first | exact .ok _ | exact Number.refuses_sqrt _

theorem refuses_offset (index : Value) : Refuses (offset index) := by
  unfold offset
  split <;> first | exact .ok _ | exact .error rfl

theorem refuses_getFromLast {s : Store} {receiver index : Value} :
    Refuses (getFromLast s receiver index) := by
  unfold getFromLast
  refine (refuses_offset index).bind fun n => ?_
  split
  · split
    · exact Store.refuses_getItem
    · exact .error rfl
  · exact .error rfl

end BuiltIn

end BasicScript
