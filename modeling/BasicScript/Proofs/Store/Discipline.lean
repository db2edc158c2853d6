import BasicScript.Proofs.Store.Refusal
import BasicScript.Proofs.Store.Root

/-! Disciplines: what can be said of a store at every moment of a run. A discipline says which
stores, values and scopes a run may meet, and a law for each way to look at a store or to change it.
The operations on values are built from these few ways, so each of them keeps every discipline. -/

set_option autoImplicit false

namespace BasicScript

def Value.isPlain : Value → Bool
  | .number _ | .string _ | .boolean _ | .null => true
  | _ => false

/-- The values that an action holds are among `owns`, and its host function is among `trusts`. It
puts nothing into a list, unless that `mutates`. -/
def Action.Within (owns : Value → Prop) (trusts : HostFunction → Prop) (mutates : Prop) :
    Action → Prop
  | .get receiver | .getFromLast receiver | .size receiver => owns receiver
  | .append list => owns (.list list) ∧ mutates
  | .pop list => owns (.list list)
  | .keys dictionary | .values dictionary => owns (.dictionary dictionary)
  | .host function => trusts function
  | _ => True

structure Discipline where
  /-- The stores that a run may reach. -/
  holds : Store → Prop
  /-- The values that a run may have in hand. -/
  owns : Store → Value → Prop
  /-- The scopes in which names may be looked up and given new values. -/
  sees : Store → Handle → Prop
  /-- The scopes in which code may run, and so declare names. -/
  runs : Store → Handle → Prop
  /-- The host functions that may be called. -/
  trusts : HostFunction → Prop
  raises : Fault → Prop
  bodies : List Node → Prop
  mutates : Prop
  /-- The stores that a new dictionary or a change of a list or dictionary may lead to. -/
  allows : Store → Prop
  owns_mono {s t : Store} {v : Value} : s.Extends t → owns s v → owns t v
  runs_mono {s t : Store} {h : Handle} : s.Extends t → runs s h → runs t h
  sees_of_runs {s : Store} {h : Handle} : runs s h → sees s h
  owns_plain {s : Store} {v : Value} : v.isPlain = true → owns s v
  owns_variable {s : Store} {h : Handle} {name : String} {v : Value} :
    holds s → sees s h → s.lookup h name = .ok v → owns s v
  owns_export {s : Store} {h : Handle} {slot : Slot} :
    holds s → runs s h → slot ∈ s.exports h → owns s slot.value
  owns_item {s : Store} {h : Handle} {v : Value} :
    holds s → owns s (.list h) → v ∈ s.items h → owns s v
  owns_entry {s : Store} {h : Handle} {entry : Value × Value} :
    holds s → owns s (.dictionary h) → entry ∈ s.entries h → owns s entry.1 ∧ owns s entry.2
  owns_member {s : Store} {h : Handle} {name : String} {v : Value} :
    holds s → owns s (.module h) → (s.modules[h]?.getD default).get? name = some v → owns s v
  sees_closure {s : Store} {h : Handle} :
    holds s → owns s (.function h) → sees s (s.functions[h]?.getD default).closure
  action_within {s : Store} {h : Handle} : holds s → owns s (.builtIn h) →
    (s.builtIns[h]?.getD default).action.Within (owns s) trusts mutates
  owns_answer {s : Store} {f : HostFunction} {call : HostCall} {v : Value} :
    trusts f → (∀ arg ∈ call.args, owns s arg) →
      (∀ name found, call.lookup name = .ok found → owns s found) → f call = .ok v → owns s v
  raises_runtime {fault : Fault} : fault.IsRuntime → raises fault
  raises_refusal {f : HostFunction} {call : HostCall} {fault : Fault} :
    trusts f → f call = .error fault → raises fault
  root_added {s : Store} : holds s → holds s.addRoot.2 ∧ runs s.addRoot.2 s.addRoot.1
  scope_added {s : Store} {h : Handle} : holds s → sees s h →
    holds (s.addScope (some h)).2 ∧ runs (s.addScope (some h)).2 (s.addScope (some h)).1
  list_added {s : Store} {items : Array Value} : holds s → (∀ v ∈ items, owns s v) →
    holds (s.addList items).2 ∧ owns (s.addList items).2 (s.addList items).1
  dictionary_added {s : Store} {entries : Entries} : holds s →
    (∀ entry ∈ entries, owns s entry.1 ∧ owns s entry.2) → allows (s.addDictionary entries).2 →
      holds (s.addDictionary entries).2 ∧ owns (s.addDictionary entries).2 (s.addDictionary entries).1
  function_added {s : Store} {f : Function} : holds s → sees s f.closure → bodies f.body →
    holds (s.addFunction f).2 ∧ owns (s.addFunction f).2 (s.addFunction f).1
  builtIn_added {s : Store} {b : BuiltIn} : holds s → b.action.Within (owns s) trusts mutates →
    holds (s.addBuiltIn b).2 ∧ owns (s.addBuiltIn b).2 (s.addBuiltIn b).1
  module_added {s : Store} {m : Exports} : holds s → (∀ entry ∈ m.entries, owns s entry.2) →
    holds (s.addModule m).2 ∧ owns (s.addModule m).2 (s.addModule m).1
  items_changed {s : Store} {h : Handle} {update : Array Value → Array Value} : holds s →
    owns s (.list h) → (∀ v ∈ update (s.items h), owns s v) →
      (mutates ∨ (update (s.items h)).toList.Sublist (s.items h).toList) →
        allows (s.setItems h update) → holds (s.setItems h update)
  entries_changed {s : Store} {h : Handle} {update : Entries → Entries} : holds s →
    owns s (.dictionary h) → (∀ entry ∈ update (s.entries h), owns s entry.1 ∧ owns s entry.2) →
      mutates → allows (s.setEntries h update) → holds (s.setEntries h update)
  slot_added {s : Store} {h : Handle} {slot : Slot} : holds s → runs s h → owns s slot.value →
    slot.builtIn = false → s.declares h slot.name = false →
      holds (s.setScope h (·.insert slot))
  slot_changed {s : Store} {h owner : Handle} {name : String} {v : Value} : holds s → sees s h →
    owns s v → s.owner? h name = some owner →
      ((s.scope owner).slot? name).any (·.constant) = false →
        holds (s.setScope owner (·.put name v))

namespace Discipline

variable (D : Discipline)

/-- A discipline for all programs. -/
class Free : Prop where
  bodies (body : List Node) : D.bodies body
  mutates : D.mutates

class LaxLists : Prop where
  allows_items {s : Store} {h : Handle} {update : Array Value → Array Value} :
    D.holds s → D.allows (s.setItems h update)

class Lax : Prop where
  allows (s : Store) : D.allows s

instance [D.Lax] : D.LaxLists := ⟨fun _ => Lax.allows _⟩

/-- The outcome of an act that began at the store `s`: the store, which `view` finds in the state,
is one that the discipline allows and extends `s`; the value is as `post` says, and the fault may be
raised. -/
inductive Sound {σ α : Type} (view : σ → Store) (s : Store) (post : Store → α → Prop) :
    EStateM.Result Fault σ α → Prop
  | value {a : α} {t : σ} (holds : D.holds (view t)) (grows : s.Extends (view t))
      (fits : post (view t) a) : Sound view s post (.ok a t)
  | fault {fault : Fault} {t : σ} (holds : D.holds (view t)) (grows : s.Extends (view t))
      (raised : D.raises fault) : Sound view s post (.error fault t)

abbrev SoundAct {α : Type} (s : Store) (post : Store → α → Prop)
    (outcome : EStateM.Result Fault Store α) : Prop := D.Sound (fun s => s) s post outcome

abbrev SoundEffect {α : Type} (s : Store) (post : Store → α → Prop)
    (outcome : EStateM.Result Fault World α) : Prop := D.Sound World.store s post outcome

abbrev anything {α : Type} : Store → α → Prop := fun _ _ => True

abbrev ownsAll (s : Store) (values : Array Value) : Prop := ∀ v ∈ values, D.owns s v

abbrev ownsEntries (s : Store) (entries : Entries) : Prop :=
  ∀ entry ∈ entries, D.owns s entry.1 ∧ D.owns s entry.2

variable {D}

theorem ownsAll_empty {s : Store} : D.ownsAll s #[] := fun v => (absurd · (Array.not_mem_empty v))

theorem ownsEntries_empty {s : Store} : D.ownsEntries s #[] :=
  fun v => (absurd · (Array.not_mem_empty v))

namespace Sound

variable {σ α β : Type} {view : σ → Store} {s : Store} {P : Store → α → Prop}
  {Q : Store → β → Prop}

theorem after {r : EStateM.Result Fault σ α} {t : Store} (grows : s.Extends t)
    (sound : D.Sound view t P r) : D.Sound view s P r := by
  cases sound with
  | value holds grows' fits => exact .value holds (grows.trans grows') fits
  | fault holds grows' raised => exact .fault holds (grows.trans grows') raised

theorem mono {P' : Store → α → Prop} {r : EStateM.Result Fault σ α} (sound : D.Sound view s P r)
    (weaker : ∀ t a, P t a → P' t a) : D.Sound view s P' r := by
  cases sound with
  | value holds grows fits => exact .value holds grows (weaker _ _ fits)
  | fault holds grows raised => exact .fault holds grows raised

theorem bind {first : EStateM Fault σ α} {rest : α → EStateM Fault σ β} {w : σ}
    (begun : D.Sound view s P (first w))
    (ended : ∀ a t, D.holds (view t) → s.Extends (view t) → P (view t) a →
      D.Sound view (view t) Q (rest a t)) :
    D.Sound view s Q ((first >>= rest) w) := by
  simp only [Bind.bind, EStateM.bind]
  generalize first w = outcome at begun ⊢
  cases begun with
  | value holds grows fits => exact (ended _ _ holds grows fits).after grows
  | fault holds grows raised => exact .fault holds grows raised

theorem map {first : EStateM Fault σ α} {f : α → β} {w : σ}
    (begun : D.Sound view s (fun t a => Q t (f a)) (first w)) :
    D.Sound view s Q ((f <$> first) w) := by
  refine bind begun fun a t holds _ fits => ?_
  exact .value holds (.refl _) fits

theorem pure {w : σ} {a : α} (holds : D.holds (view w)) (fits : P (view w) a) :
    D.Sound view (view w) P ((Pure.pure a : EStateM Fault σ α) w) :=
  .value holds (.refl _) fits

theorem throw {w : σ} {fault : Fault} (holds : D.holds (view w)) (raised : fault.IsRuntime) :
    D.Sound view (view w) P ((MonadExcept.throw fault : EStateM Fault σ α) w) :=
  .fault holds (.refl _) (D.raises_runtime raised)

end Sound

theorem within_anything (action : Action) :
    action.Within (fun _ => True) (fun _ => True) True := by
  cases action <;> simp [Action.Within]

def any : Discipline where
  holds _ := True
  owns _ _ := True
  sees _ _ := True
  runs _ _ := True
  trusts _ := True
  raises _ := True
  bodies _ := True
  mutates := True
  allows _ := True
  owns_mono _ _ := trivial
  runs_mono _ _ := trivial
  sees_of_runs _ := trivial
  owns_plain _ := trivial
  owns_variable _ _ _ := trivial
  owns_export _ _ _ := trivial
  owns_item _ _ _ := trivial
  owns_entry _ _ _ := ⟨trivial, trivial⟩
  owns_member _ _ _ := trivial
  sees_closure _ _ := trivial
  action_within _ _ := within_anything _
  owns_answer _ _ _ _ := trivial
  raises_runtime _ := trivial
  raises_refusal _ _ := trivial
  root_added _ := ⟨trivial, trivial⟩
  scope_added _ _ := ⟨trivial, trivial⟩
  list_added _ _ := ⟨trivial, trivial⟩
  dictionary_added _ _ _ := ⟨trivial, trivial⟩
  function_added _ _ _ := ⟨trivial, trivial⟩
  builtIn_added _ _ := ⟨trivial, trivial⟩
  module_added _ _ := ⟨trivial, trivial⟩
  items_changed _ _ _ _ _ := trivial
  entries_changed _ _ _ _ _ := trivial
  slot_added _ _ _ _ _ := trivial
  slot_changed _ _ _ _ _ := trivial

instance : any.Free := ⟨fun _ => trivial, trivial⟩

instance : any.Lax := ⟨fun _ => trivial⟩

end Discipline

end BasicScript
