import BasicScript.Proofs.Evaluate.Bookkeeping
import BasicScript.Proofs.Store.Keys

/-! Keys of dictionaries in a run. A program may change a list that serves as a key, and two keys
that were distinct are then equal. As long as it does not do so, keys stay distinct: shown beside an
evaluator that is cut off where something inside of a key changes. -/

set_option autoImplicit false

namespace BasicScript

/-- A way to run a part of a program, by what is a key after it. -/
abbrev Eval.Guard := ∀ α : Type, (Store → List Value) → Eval α → Eval α

namespace Evaluator

variable (guard : Eval.Guard) (evaluate : Evaluator) (frame : Frame)

def entriesGuarded : List (Node × Node) → Entries → Eval Entries
  | [], found => return found
  | (key, value) :: rest, found => do
    let entry ← guard _ (fun _ => found.toList.map Prod.fst) do
      return (← evaluate key frame, ← evaluate value frame)
    let found ← Eval.read fun s => s.insert found entry.1 entry.2
    entriesGuarded rest found

variable (permits : Frame → Session → Prop) [∀ frame s, Decidable (permits frame s)]
  (alarm : Evaluator)

end Evaluator

namespace Interrupt

variable {trip : Diagnostic} {x : Interrupt} {note : String}

end Interrupt

theorem Interrupt.Carries.mono {x : Interrupt} {owns owns' : Value → Prop} (carries : x.Carries owns)
    (weaker : ∀ v, owns v → owns' v) : x.Carries owns' := by
  cases x with
  | exitFunction v => exact weaker v carries
  | failed _ | exitLoop _ | nextTurn _ | exhausted => trivial

namespace Eval

variable {α : Type} {trip : Diagnostic} {keys : Store → List Value} {m : Eval α} {s : Session}

end Eval

namespace Agree

variable {α : Type} {D D' : Discipline} {cut : Interrupt → Prop}
  {stops : Interrupt → Interrupt → Prop} {s : Session} {P Q : Store → α → Prop} {m n : Eval α}

end Agree

/-- Two guards beside each other. What agrees in a part of a program agrees if the part is guarded,
and both may then rely on it that it has changed nothing inside of a key, unless the first has been
cut off. -/
structure Eval.Guarding (cut : Interrupt → Prop) (guard guard' : Eval.Guard) : Prop where
  signal {x : Interrupt} : cut x → x.isSignal = false
  note {x : Interrupt} {note : String} : cut x → cut (x.withNote note)
  agree {α : Type} {D D' : Discipline} {stops : Interrupt → Interrupt → Prop} {s : Session}
    {P Q : Store → α → Prop} {m n : Eval α} {keys : Store → List Value}
    (began : D.holds s.world.store) (same : ∀ x, stops x x)
    (agree : Agree D' cut stops s P (m s) (n s))
    (holds : ∀ t, D'.holds t → (∀ key ∈ keys t, s.world.store.Kept t key) → D.holds t)
    (owns : ∀ t v, D'.owns t v → D.owns t v)
    (fits : ∀ t a, (∀ key ∈ keys t, s.world.store.Kept t key) → P t a → Q t a) :
    Agree D cut stops s Q (guard α keys m s) (guard' α keys n s)

namespace Eval.Guarding

variable {trip : Diagnostic}

end Eval.Guarding

namespace Coupling

variable {cut : Interrupt → Prop} {guard guard' : Eval.Guard}

abbrev guarded (D : Discipline) (host : Host) (guarding : Eval.Guarding cut guard guard') :
    Coupling D host host.config.maxCallDepth :=
  .cutBy D cut guarding.signal guarding.note (.inl rfl)

variable {host : Host} {guarding : Eval.Guarding cut guard guard'} {first second : Evaluator}
  {f : Frame} {τ : List String} {s : Session}

/-- Until something is stored, keys have been distinct in the store that there is. -/
theorem Ready.since (ready : (guarded .keyed host guarding).Ready f τ s) :
    (guarded (.keyedSince s.world.store) host guarding).Ready f τ s where
  holds := ready.holds
  frames := ready.frames
  runs := ready.runs

theorem Ready.guard_part {α : Type} {D' : Discipline} {P Q : Store → α → Prop} {m n : Eval α}
    {keys : Store → List Value} (ready : (guarded .keyed host guarding).Ready f τ s)
    (agree : (guarded D' host guarding).Agrees f τ s P (m s) (n s))
    (holds : ∀ t, D'.holds t → (∀ key ∈ keys t, s.world.store.Kept t key) → Discipline.keyed.holds t)
    (owns : ∀ t v, D'.owns t v → Discipline.keyed.owns t v)
    (fits : ∀ t a, (∀ key ∈ keys t, s.world.store.Kept t key) → P t a → Q t a) :
    (guarded .keyed host guarding).Agrees f τ s Q (guard α keys m s) (guard' α keys n s) :=
  guarding.agree ready.holds (fun _ => ⟨ready.frames, rfl⟩) agree holds owns fits

namespace Coupled

theorem pair {D : Discipline} {limit : Nat} {C : Coupling D host limit} {node : Node × Node}
    (coupled : C.Coupled first second) (ready : C.Ready f τ s) :
    C.Agrees f τ s (fun t entry => D.owns t entry.1 ∧ D.owns t entry.2)
      ((do return (← first node.1 f, ← first node.2 f) : Eval (Value × Value)) s)
      ((do return (← second node.1 (f.withTrace τ), ← second node.2 (f.withTrace τ)) :
        Eval (Value × Value)) s) := by
  apply Agree.bind (coupled node.1 ready)
  intro key t after ownsKey
  apply Agree.bind (coupled node.2 (ready.after after))
  intro value u after' ownsValue
  exact .pure after'.holds ⟨D.owns_mono after'.grows ownsKey, ownsValue⟩

variable (coupled : (guarded .keyed host guarding).Coupled first second)

include coupled

theorem entriesGuarded {nodes : List (Node × Node)} {found : Entries}
    (ready : (guarded .keyed host guarding).Ready f τ s)
    (owned : Discipline.keyed.ownsEntries s.world.store found)
    (distinct : s.world.store.DistinctKeys found) :
    (guarded .keyed host guarding).Agrees f τ s
      (fun t table => Discipline.keyed.ownsEntries t table ∧ t.DistinctKeys table)
      (Evaluator.entriesGuarded guard first f nodes found s)
      (Evaluator.entriesGuarded guard' second (f.withTrace τ) nodes found s) := by
  -- on the entries that are left; the keys found so far are in no dictionary of the store yet
  induction nodes generalizing found s with
  | nil => exact .pure ready.holds ⟨owned, distinct⟩
  | cons node rest ih =>
    refine Agree.bind (P := fun t entry =>
        (∀ entry ∈ found, s.world.store.Kept t entry.1) ∧ entry.1.Made t ∧ entry.2.Made t)
      (ready.guard_part (coupled.pair ready) (fun _ holds _ => holds) (fun _ _ => id) ?_) ?_
    · intro t entry kept made
      refine ⟨fun other inside => kept _ ?_, made⟩
      exact List.mem_map_of_mem (Array.mem_toList_iff.mpr inside)
    · intro entry t after ⟨kept, madeKey, madeValue⟩
      have distinct := distinct.kept kept
      have owned : Discipline.keyed.ownsEntries t.world.store found := fun other inside =>
        ⟨Discipline.keyed.owns_mono after.grows (owned other inside).1,
          Discipline.keyed.owns_mono after.grows (owned other inside).2⟩
      refine Agree.bind (P := fun u table => Discipline.keyed.ownsEntries u table ∧ u.DistinctKeys table)
        (.read after.holds ⟨Discipline.owns_of_insert owned madeKey madeValue, distinct.insert⟩) ?_
      intro table u after' ⟨owned, distinct⟩
      exact ih ((ready.after after).after after') owned distinct

end Coupled

end Coupling

namespace Eval

open Evaluator

variable {host : Host} {s : Session} {trip : Diagnostic}

end Eval

end BasicScript
