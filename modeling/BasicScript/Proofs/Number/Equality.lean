import BasicScript.Proofs.Number.Value
import BasicScript.Proofs.Store.Comparison

/-! Equality of numbers. An integer equals a double exactly if that is the double nearest to it, so
a double may equal several integers, which are not equal to each other. Nothing else keeps equality
from being transitive. -/

set_option autoImplicit false

namespace BasicScript

namespace Number

def isNaN : Number → Bool
  | .int _ => false
  | .float f => f.isNaN

/-- A double stands between two different integers. -/
def Bridged (a b c : Number) : Prop := ∃ m f n, a = .int m ∧ b = .float f ∧ c = .int n ∧ m ≠ n

theorem equal_self_iff (a : Number) : a.equal a ↔ a.isNaN = false := by
  cases a with
  | int n => simp [equal, isNaN]
  | float f => simp [equal, toFloat, isNaN]

theorem equal_comm (a b : Number) : a.equal b = b.equal a := by
  cases a <;> cases b <;> exact BEq.comm

theorem isFinite_of_beq {f g : Float} (same : f == g) (finite : f.isFinite) : g.isFinite := by
  obtain ⟨-, -, rfl | ⟨-, rfl⟩ | ⟨-, rfl⟩⟩ := Float.beq_iff_ne_nan_and_eq.mp same
  · exact finite
  all_goals decide +kernel

/-- An integer equals the double nearest to it and no other. -/
theorem equal_int_float (n : Int64) (f : Float) :
    (Number.int n).equal (.float f) ↔ f.isFinite ∧ Double.value f = Double.nearest n.toInt := by
  have ⟨finite, nearest⟩ := Double.value_toInt n
  show ((Number.int n).toFloat == f) = true ↔ _
  constructor
  · intro same
    have finite' := isFinite_of_beq same finite
    exact ⟨finite', nearest ▸ ((Double.beq_iff finite finite').mp same).symm⟩
  · rintro ⟨finite', same⟩
    exact (Double.beq_iff finite finite').mpr (nearest.trans same.symm)

theorem equal_trans {a b c : Number} (first : a.equal b) (second : b.equal c) :
    a.equal c ↔ ¬Bridged a b c := by
  -- where a double takes part, a comparison is one of doubles
  have floats : a.toFloat == b.toFloat → b.toFloat == c.toFloat → a.toFloat == c.toFloat := BEq.trans
  match a, b, c with
  | .int m, .float f, .int n =>
    have exact : Bridged (.int m) (.float f) (.int n) ↔ m ≠ n :=
      ⟨fun ⟨_, _, _, left, _, right, apart⟩ => by cases left; cases right; exact apart,
        fun apart => ⟨m, f, n, rfl, rfl, rfl, apart⟩⟩
    rw [exact, not_not]
    exact beq_iff_eq
  | .int m, .int n, c =>
    obtain rfl : m = n := eq_of_beq first
    exact ⟨fun _ ⟨_, _, _, _, middle, _⟩ => (nomatch middle), fun _ => second⟩
  | .float f, .int m, .int n =>
    obtain rfl : m = n := eq_of_beq second
    exact ⟨fun _ ⟨_, _, _, left, _⟩ => (nomatch left), fun _ => first⟩
  | .float f, .int n, .float g | .float f, .float g, .int n | .float f, .float g, .float h =>
    exact ⟨fun _ ⟨_, _, _, left, _⟩ => (nomatch left), fun _ => floats first second⟩
  | .int n, .float f, .float g =>
    exact ⟨fun _ ⟨_, _, _, _, _, right, _⟩ => (nomatch right), fun _ => floats first second⟩

/-- Among these numbers no double equals two integers. -/
def Separated (among : Number → Prop) : Prop :=
  ∀ f m n, among (.float f) → among (.int m) → among (.int n) →
    (int m).equal (.float f) → (int n).equal (.float f) → m = n

end Number

namespace Store

theorem equal_number (s : Store) (a b : Number) : s.equal (.number a) (.number b) = a.equal b :=
  s.equal_of_equalWithin? (n := 0) rfl

theorem equivalence_iff (s : Store) (among : Number → Prop) :
    Equivalence (fun a b : {n // among n} => s.equal (.number a) (.number b)) ↔
      (∀ n, among n → n.isNaN = false) ∧ Number.Separated among := by
  simp only [equal_number]
  constructor
  · intro law
    refine ⟨fun n inside => (Number.equal_self_iff n).mp (law.refl ⟨n, inside⟩), ?_⟩
    intro f m n double left right first second
    rw [Number.equal_comm] at second
    have same := law.trans (x := ⟨.int m, left⟩) (y := ⟨.float f, double⟩) (z := ⟨.int n, right⟩)
      first second
    exact eq_of_beq same
  · rintro ⟨real, separated⟩
    refine ⟨fun a => (Number.equal_self_iff a).mpr (real a a.2), ?_, ?_⟩
    · intro a b same
      rwa [Number.equal_comm]
    · rintro ⟨a, left⟩ ⟨b, middle⟩ ⟨c, right⟩ first second
      refine (Number.equal_trans first second).mpr ?_
      rintro ⟨m, f, n, rfl, rfl, rfl, apart⟩
      rw [Number.equal_comm] at second
      exact apart (separated f m n middle left right first second)

end Store

namespace Number

/-- Equality of numbers and of keys that are numbers. A number equals itself unless it is undefined,
and equality may be turned around. It passes on, except over a double between two different
integers; an integer equals a double exactly if that is the one nearest to it, which has the same
value up to 53 bits. So keys are compared by an equivalence on all those numbers among which there
is neither an undefined one nor a double that equals two integers. -/
theorem equal_consistent :
    (∀ a : Number, a.equal a ↔ a.isNaN = false) ∧
    (∀ a b : Number, a.equal b → b.equal a) ∧
    (∀ a b c : Number, a.equal b → b.equal c → (a.equal c ↔ ¬Bridged a b c)) ∧
    (∀ (n : Int64) (f : Float), (Number.int n).equal (.float f) ↔
      f.isFinite ∧ (Number.float f).value = Double.nearest n.toInt) ∧
    (∀ n : Int64, (∃ f : Float, f.isFinite ∧ (Number.float f).value = Double.nearest n.toInt) ∧
      ∀ f : Float, f.isFinite → |(Number.int n).value - Double.nearest n.toInt| ≤
        |(Number.int n).value - (Number.float f).value|) ∧
    (∀ n : Int64, n.toInt.natAbs ≤ 2 ^ 53 → Double.nearest n.toInt = (Number.int n).value) ∧
    ∀ (s : Store) (among : Number → Prop),
      Equivalence (fun a b : {n // among n} => s.equal (.number a) (.number b)) ↔
        (∀ n, among n → n.isNaN = false) ∧ Separated among :=
  ⟨equal_self_iff, fun a b same => by rwa [equal_comm], fun _ _ _ => equal_trans, equal_int_float,
    fun n => ⟨⟨_, Double.value_toInt n⟩, fun f _ => Double.nearest_closest n.toInt f⟩,
    fun n small => congrArg Int.cast (Double.nearest_of_le small), Store.equivalence_iff⟩

def IsShort : Number → Prop
  | .int n => n.toInt.natAbs ≤ 2 ^ 53
  | .float f => f.isNaN = false

theorem separated_isShort : Separated IsShort := by
  intro f m n _ left right first second
  have same := ((equal_int_float m f).mp first).2.symm.trans ((equal_int_float n f).mp second).2
  rw [Double.nearest_of_le left, Double.nearest_of_le right, Int.cast_inj] at same
  exact Int64.toInt_inj.mp same

/-- Integers of up to 53 bits and all doubles together are compared without a gap. -/
theorem equal_consistent_isShort :
    (∀ s : Store, Equivalence fun a b : {n // IsShort n} => s.equal (.number a) (.number b)) ∧
    (Number.int 3).equal (.float 3) ∧ (Number.float 3).value = 3 ∧ (Number.int 3).equal (.int 3) := by
  have ⟨_, turned, passes, doubles, _, short, keys⟩ := equal_consistent
  have same : (Number.int 3).equal (.float 3) := by decide +kernel
  refine ⟨fun s => (keys s IsShort).mpr ⟨?_, separated_isShort⟩, same, ?_, ?_⟩
  · rintro (n | f) inside
    · rfl
    · exact inside
  · rw [((doubles 3 3).mp same).2, short 3 (by decide)]
    rfl
  · refine (passes _ _ _ same (turned _ _ same)).mpr ?_
    rintro ⟨m, f, n, left, _, right, apart⟩
    injection left with left
    injection right with right
    exact apart (left.symm.trans right)

/-- The double nearest to an integer may be nearest to a second one. -/
theorem equal_not_transitive :
    let a := Number.int 9007199254740993
    let b := Number.float 9007199254740992
    let c := Number.int 9007199254740992
    (a.isNaN = false ∧ b.isNaN = false ∧ c.isNaN = false) ∧ a.equal b ∧ b.equal c ∧ ¬a.equal c ∧
      a.value ≠ b.value ∧
      ∀ s : Store, ¬Equivalence fun a b : {n : Number // n.isNaN = false} =>
        s.equal (.number a) (.number b) := by
  have first : (Number.int 9007199254740993).equal (.float 9007199254740992) := by decide +kernel
  have second : (Number.float 9007199254740992).equal (.int 9007199254740992) := by decide +kernel
  refine ⟨by decide +kernel, first, second, by decide, ?_, ?_⟩
  · have rounded : Double.nearest 9007199254740993 = 9007199254740992 := by decide +kernel
    show ((9007199254740993 : Int) : ℚ) ≠ Double.value 9007199254740992
    rw [((equal_int_float _ _).mp first).2]
    show ((9007199254740993 : Int) : ℚ) ≠ (Double.nearest 9007199254740993 : Int)
    rw [rounded]
    decide
  · intro s law
    have separated := ((s.equivalence_iff _).mp law).2
    rw [equal_comm] at second
    exact absurd (separated _ _ _ (by decide +kernel) rfl rfl first second) (by decide)

end Number

end BasicScript
