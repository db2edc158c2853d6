import BasicScript.Proofs.Evaluate.Import
import BasicScript.Proofs.Store.Calm

/-! Evaluations that end on calm stores. A run is a body for each amount of fuel; it halts when from
some amount on all of them end alike, and not for want of fuel. Every rule of the evaluator for tame
nodes halts when its parts do, and leaves the store calm for what comes behind it. -/

set_option autoImplicit false

namespace BasicScript

def Session.Settles (origin : Store) (s t : Session) : Prop :=
  (Discipline.calm origin s.world.store).After s t

/-- A run has been calm since the store was `origin`, these files and so many calls are active, and
the frame is in the region that has been made since. -/
structure Frame.Steady (origin : Store) (st : List Path) (d : Nat) (f : Frame) (s : Session) :
    Prop where
  apart : origin.Apart s.world.store s.world.store
  calm : origin.Calm s.world.store
  beyond : origin.scopes.size ≤ f.scope
  importStack : s.importStack = st
  callDepth : s.callDepth = d

section

variable {origin : Store} {s t u : Session} {st : List Path} {d : Nat} {f : Frame} {v : Value}

theorem Frame.Steady.holds (steady : f.Steady origin st d s) :
    (Discipline.calm origin s.world.store).holds s.world.store :=
  ⟨steady.apart, steady.calm, .refl _⟩

theorem Frame.Steady.settles (steady : f.Steady origin st d s) : s.Settles origin s :=
  .refl steady.holds

theorem Frame.Steady.after (steady : f.Steady origin st d s) (settles : s.Settles origin t) :
    f.Steady origin st d t where
  apart := settles.holds.1
  calm := settles.holds.2.1
  beyond := steady.beyond
  importStack := settles.importStack.trans steady.importStack
  callDepth := settles.callDepth.trans steady.callDepth

namespace Session.Settles

theorem trans (first : s.Settles origin t) (second : t.Settles origin u) : s.Settles origin u where
  holds := ⟨second.holds.1, second.holds.2.1, first.holds.2.2.trans second.holds.2.2⟩
  grows := first.grows.trans second.grows
  importStack := second.importStack.trans first.importStack
  callDepth := second.callDepth.trans first.callDepth

theorem there (settles : s.Settles origin t) (there : v.There origin s.world.store) :
    v.There origin t.world.store :=
  (Discipline.calm origin s.world.store).owns_mono settles.grows there

end Session.Settles

end

/-- The outcome of tame code that began in the session `s`, if it is one: a value as `P` says, or an
interrupt that no more fuel would have avoided. -/
inductive Ends {α : Type} (origin : Store) (s : Session) (P : Store → α → Prop) :
    EStateM.Result Interrupt Session α → Prop
  | value {a : α} {t : Session} (settles : s.Settles origin t) (fits : P t.world.store a) :
      Ends origin s P (.ok a t)
  | stop {x : Interrupt} {t : Session} (settles : s.Settles origin t) (final : x ≠ .exhausted)
      (carries : x.Carries (Value.There origin t.world.store)) : Ends origin s P (.error x t)

theorem Interrupt.final_failed {d : Diagnostic} : Interrupt.failed d ≠ .exhausted := nofun

theorem Interrupt.final_exitFunction {v : Value} : Interrupt.exitFunction v ≠ .exhausted := nofun

def Halts {α : Type} (origin : Store) (run : Nat → Eval α) (s : Session) (P : Store → α → Prop) :
    Prop :=
  ∃ n r, Ends origin s P r ∧ ∀ m, n ≤ m → run m s = r

abbrev anyValue {α : Type} : Store → α → Prop := fun _ _ => True

abbrev allThere (origin s : Store) (values : Array Value) : Prop := ∀ v ∈ values, v.There origin s

namespace Halts

variable {α β : Type} {origin : Store} {s t : Session} {st : List Path} {d : Nat} {f : Frame}
  {span : Span} {P : Store → α → Prop} {Q : Store → β → Prop}

theorem bind {m : Nat → Eval α} {k : Nat → α → Eval β} (begun : Halts origin m s P)
    (ended : ∀ a t, s.Settles origin t → P t.world.store a → Halts origin (fun i => k i a) t Q) :
    Halts origin (fun i => m i >>= k i) s Q := by
  obtain ⟨n, r, ends, same⟩ := begun
  cases ends with
  | @value a t settles fits =>
    -- both parts have to have their fuel, so it takes the larger amount
    obtain ⟨n', r', ends, same'⟩ := ended a t settles fits
    refine ⟨max n n', r', ?_, fun i enough => ?_⟩
    · cases ends with
      | value settles' fits => exact .value (settles.trans settles') fits
      | stop settles' final carries => exact .stop (settles.trans settles') final carries
    · exact (bind_of_ok (same i (by omega))).trans (same' i (by omega))
  | stop settles final carries =>
    exact ⟨n, _, .stop settles final carries, fun i enough => bind_of_error (same i enough)⟩

theorem of_ends {body : Eval α} (ends : Ends origin s P (body s)) :
    Halts origin (fun _ => body) s P :=
  ⟨0, body s, ends, fun _ _ => rfl⟩

theorem pure {a : α} (steady : f.Steady origin st d s) (fits : P s.world.store a) :
    Halts origin (fun _ => (Pure.pure a : Eval α)) s P := .of_ends (.value steady.settles fits)

theorem throw {x : Interrupt} (steady : f.Steady origin st d s) (final : x ≠ .exhausted)
    (carries : x.Carries (Value.There origin s.world.store)) :
    Halts origin (fun _ => (MonadExcept.throw x : Eval α)) s P :=
  .of_ends (.stop steady.settles final carries)

theorem fail {fault : Fault} (steady : f.Steady origin st d s) :
    Halts origin (fun _ => (Eval.fail f fault span : Eval α)) s P :=
  throw steady Interrupt.final_failed trivial

theorem get {k : Nat → Session → Eval β} (halts : Halts origin (fun i => k i s) s Q) :
    Halts origin (fun i => MonadState.get >>= k i) s Q := halts

theorem read {view : Store → α} (steady : f.Steady origin st d s)
    (fits : P s.world.store (view s.world.store)) :
    Halts origin (fun _ => Eval.read view) s P := .of_ends (.value steady.settles fits)

theorem change {update : Store → α × Store} (grows : s.world.store.Extends (update s.world.store).2)
    (allowed : (Discipline.calm origin s.world.store).holds (update s.world.store).2 ∧
      P (update s.world.store).2 (update s.world.store).1) :
    Halts origin (fun _ => Eval.change update) s P :=
  .of_ends (.value ⟨allowed.1, grows, rfl, rfl⟩ allowed.2)

theorem ofEffect {effect : Effect α} {trace : List String}
    (sound : (Discipline.calm origin s.world.store).SoundEffect s.world.store P (effect s.world)) :
    Halts origin (fun _ => Eval.ofEffect trace span effect) s P := by
  refine of_ends ?_
  simp only [Eval.ofEffect]
  generalize effect s.world = outcome at sound ⊢
  cases sound with
  | value holds grows fits => exact .value ⟨holds, grows, rfl, rfl⟩ fits
  | fault holds grows _ => exact .stop ⟨holds, grows, rfl, rfl⟩ Interrupt.final_failed trivial

theorem act {act : Act α} (sound : (Discipline.calm origin s.world.store).SoundAct s.world.store P
    (act s.world.store)) : Halts origin (fun _ => Eval.ofAct f span act) s P :=
  ofEffect (Discipline.ofAct sound)

theorem map {m : Nat → Eval α} {φ : EStateM.Result Interrupt Session α →
    EStateM.Result Interrupt Session β} (halts : Halts origin m s P)
    (maps : ∀ r, Ends origin s P r → Ends origin s Q (φ r)) :
    Halts origin (fun i s => φ (m i s)) s Q := by
  obtain ⟨n, r, ends, same⟩ := halts
  exact ⟨n, φ r, maps r ends, fun i enough => congrArg φ (same i enough)⟩

theorem mapInterrupt {m : Nat → Eval α} {φ : Interrupt → Interrupt} (halts : Halts origin m s P)
    (final : ∀ x, x ≠ .exhausted → φ x ≠ .exhausted)
    (carries : ∀ x owns, x.Carries owns → (φ x).Carries owns) :
    Halts origin (fun i => Eval.mapInterrupt φ (m i)) s P := by
  simp only [fun i => funext (Eval.mapInterrupt_eq φ (m i))]
  refine halts.map fun r ends => ?_
  cases ends with
  | value settles fits => exact .value settles fits
  | stop settles final' carried => exact .stop settles (final _ final') (carries _ _ carried)

theorem nested {m : Nat → Eval α}
    (halts : Halts origin m ⟨s.world, s.importStack, s.callDepth + 1⟩ P) :
    Halts origin (fun i => Eval.nested (m i)) s P := by
  obtain ⟨n, r, ends, same⟩ := halts
  refine ⟨n, Eval.nested (fun _ => r) s, ?_,
    fun i enough => by simp only [Eval.nested, same i enough]⟩
  cases ends with
  | value settles fits =>
    exact .value ⟨settles.holds, settles.grows, settles.importStack,
      congrArg (· - 1) settles.callDepth⟩ fits
  | stop settles final carries =>
    exact .stop ⟨settles.holds, settles.grows, settles.importStack,
      congrArg (· - 1) settles.callDepth⟩ final carries

theorem within {m : Nat → Eval α} {path : Path}
    (halts : Halts origin m ⟨s.world, path :: s.importStack, s.callDepth⟩ P) :
    Halts origin (fun i => Eval.within path (m i)) s P := by
  obtain ⟨n, r, ends, same⟩ := halts
  refine ⟨n, Eval.within path (fun _ => r) s, ?_,
    fun i enough => by simp only [Eval.within, same i enough]⟩
  cases ends with
  | value settles fits =>
    exact .value ⟨settles.holds, settles.grows, congrArg List.tail settles.importStack,
      settles.callDepth⟩ fits
  | stop settles final carries =>
    exact .stop ⟨settles.holds, settles.grows, congrArg List.tail settles.importStack,
      settles.callDepth⟩ final carries

/-- A run that halts does so with more fuel for each of its bodies, too. -/
theorem later {m : Nat → Eval α} (halts : Halts origin m s P) (k : Nat) :
    Halts origin (fun i => m (i + k)) s P := by
  obtain ⟨n, r, ends, same⟩ := halts
  exact ⟨n, r, ends, fun i enough => same (i + k) (by omega)⟩

/-- Some fuel may be gone at the beginning. -/
theorem of_succ {m : Nat → Eval α} (halts : Halts origin (fun i => m (i + 1)) s P) :
    Halts origin m s P := by
  obtain ⟨n, r, ends, same⟩ := halts
  refine ⟨n + 1, r, ends, fun i enough => ?_⟩
  obtain ⟨i, rfl⟩ : ∃ j, i = j + 1 := ⟨i - 1, by omega⟩
  exact same i (by omega)

end Halts

end BasicScript
