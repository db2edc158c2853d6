import BasicScript.Evaluate
import BasicScript.Proofs.Outcome
import BasicScript.Proofs.Store.Growth
import BasicScript.Proofs.Store.Scope

/-! Root scopes. Making one always succeeds, since a scope without names refuses none of the
distinct names of the interpreter: `newRoot` is the plain change `addRoot` of the store. -/

set_option autoImplicit false

namespace BasicScript

theorem Effect.alloc_eq (add : Store → Value × Store) (w : World) :
    Effect.alloc add w = .ok (add w.store).1 ⟨(add w.store).2, w.console⟩ := rfl

def Slot.ofBuiltIn (name : String) (value : Value) : Slot := ⟨name, value, true, true⟩

/-- The slots of a new root scope, whose functions stand in their table from `first` on. -/
def BuiltIn.rootSlots (first : Handle) : List Slot :=
  constants.map (fun (name, value) => .ofBuiltIn name value) ++
    globals.mapIdx fun i b => .ofBuiltIn b.name (.builtIn (first + i))

theorem BuiltIn.rootSlots_distinct (first : Handle) : ((rootSlots first).map Slot.name).Nodup := by
  have names : (rootSlots first).map Slot.name =
      constants.map Prod.fst ++ globals.map BuiltIn.name := by
    simp only [rootSlots, List.map_append, List.map_map]
    rfl
  rw [names]
  decide

theorem BuiltIn.slots_root (first : Handle) :
    ((Scope.empty none).extend (rootSlots first)).slots = rootSlots first :=
  Scope.slots_extend (rootSlots_distinct first)

namespace Store

def withRoot (s : Store) (slots : List Slot) (functions : Array BuiltIn) : Store :=
  { s with
    scopes := s.scopes.push ((Scope.empty none).extend slots)
    builtIns := s.builtIns ++ functions }

def addRoot (s : Store) : Handle × Store :=
  (s.scopes.size, s.withRoot (BuiltIn.rootSlots s.builtIns.size) BuiltIn.globals.toArray)

variable {s : Store} {slots : List Slot} {functions : Array BuiltIn}

theorem extends_withRoot : s.Extends (s.withRoot slots functions) :=
  { Extends.refl s with
    scopes := by simp [withRoot]
    builtIns := by simp [withRoot] }

theorem scope_withRoot :
    (s.withRoot slots functions).scope s.scopes.size = (Scope.empty none).extend slots := by
  simp [scope, withRoot]

theorem modify_push {α : Type} (table : Array α) (a : α) (f : α → α) :
    (table.push a).modify table.size f = table.push (f a) := by
  apply Array.ext
  · simp
  · grind

theorem declareBuiltIn_withRoot {name : String} {value : Value}
    (absent : name ∉ slots.map Slot.name) :
    declareBuiltIn s.scopes.size name value (s.withRoot slots functions) =
      .ok () (s.withRoot (slots ++ [.ofBuiltIn name value]) functions) := by
  have free : (s.withRoot slots functions).declares s.scopes.size name = false := by
    rw [declares, scope_withRoot, Bool.eq_false_iff, ne_eq, Scope.declares_iff, Scope.mem_order_extend]
    exact fun found => found.elim (List.not_mem_nil) absent
  simp only [declareBuiltIn, declareSlot, free, Bool.false_eq_true, ↓reduceIte]
  congr 1
  simp [withRoot, setScope, Slot.ofBuiltIn, modify_push, Scope.extend]

theorem addBuiltIn_withRoot {b : BuiltIn} :
    (s.withRoot slots functions).addBuiltIn b =
      (.builtIn (s.builtIns.size + functions.size), s.withRoot slots (functions.push b)) := by
  simp [addBuiltIn, withRoot]

end Store

namespace BuiltIn

variable (s : Store) (console : Console)

theorem forIn_cons_of_yield {σ β : Type} {x : β} {rest : List β}
    {body : β → PUnit → EStateM Fault σ (ForInStep PUnit)} {w t : σ}
    (turn : body x PUnit.unit w = .ok (.yield PUnit.unit) t) :
    (forIn (x :: rest) PUnit.unit body : EStateM Fault σ PUnit) w =
      (forIn rest PUnit.unit body : EStateM Fault σ PUnit) t := by
  rw [List.forIn_cons]
  exact bind_of_ok turn

/-- Declaring constants whose names are new appends them. -/
theorem install_constants (entries : List (String × Value)) (slots : List Slot)
    (distinct : (slots.map Slot.name ++ entries.map Prod.fst).Nodup) :
    (forIn entries PUnit.unit fun (entry : String × Value) _ => do
      Effect.ofAct (Store.declareBuiltIn s.scopes.size entry.1 entry.2)
      pure (ForInStep.yield PUnit.unit) : Effect PUnit) ⟨s.withRoot slots #[], console⟩ =
    .ok PUnit.unit ⟨s.withRoot
      (slots ++ entries.map fun entry => .ofBuiltIn entry.1 entry.2) #[], console⟩ := by
  induction entries generalizing slots with
  | nil => simp; rfl
  | cons entry rest ih =>
    have absent : entry.1 ∉ slots.map Slot.name := fun found =>
      (List.nodup_append.mp distinct).2.2 _ found _ (by simp) rfl
    have turn : Effect.ofAct (Store.declareBuiltIn s.scopes.size entry.1 entry.2)
        ⟨s.withRoot slots #[], console⟩ =
          .ok () ⟨s.withRoot (slots ++ [.ofBuiltIn entry.1 entry.2]) #[], console⟩ := by
      simp only [Effect.ofAct, Store.declareBuiltIn_withRoot absent]
    -- the slots so far and the names that are left stay without a repetition
    rw [forIn_cons_of_yield
      (t := ⟨s.withRoot (slots ++ [.ofBuiltIn entry.1 entry.2]) #[], console⟩), ih]
    · simp
    · simpa [Slot.ofBuiltIn] using distinct
    · exact bind_of_ok turn

/-- Declaring functions whose names are new appends them, each with a handle of its own. -/
theorem install_functions (table : List BuiltIn) (slots : List Slot) (functions : Array BuiltIn)
    (distinct : (slots.map Slot.name ++ table.map BuiltIn.name).Nodup) :
    (forIn table PUnit.unit fun (b : BuiltIn) _ => do
      let value ← Effect.alloc (·.addBuiltIn b)
      Effect.ofAct (Store.declareBuiltIn s.scopes.size b.name value)
      pure (ForInStep.yield PUnit.unit) : Effect PUnit) ⟨s.withRoot slots functions, console⟩ =
    .ok PUnit.unit ⟨s.withRoot
      (slots ++ table.mapIdx fun i b =>
        .ofBuiltIn b.name (.builtIn (s.builtIns.size + (functions.size + i))))
      (functions ++ table.toArray), console⟩ := by
  -- on the functions that are left; what has been declared stands in front, in both tables
  induction table generalizing slots functions with
  | nil => simp; rfl
  | cons b rest ih =>
    have absent : b.name ∉ slots.map Slot.name := fun found =>
      (List.nodup_append.mp distinct).2.2 _ found _ (by simp) rfl
    let value : Value := .builtIn (s.builtIns.size + functions.size)
    have alloc : Effect.alloc (·.addBuiltIn b) ⟨s.withRoot slots functions, console⟩ =
        .ok value ⟨s.withRoot slots (functions.push b), console⟩ := by
      rw [Effect.alloc_eq, Store.addBuiltIn_withRoot]
    have turn : Effect.ofAct (Store.declareBuiltIn s.scopes.size b.name value)
        ⟨s.withRoot slots (functions.push b), console⟩ =
          .ok () ⟨s.withRoot (slots ++ [.ofBuiltIn b.name value]) (functions.push b), console⟩ := by
      simp only [Effect.ofAct, Store.declareBuiltIn_withRoot absent]
    rw [forIn_cons_of_yield
      (t := ⟨s.withRoot (slots ++ [.ofBuiltIn b.name value]) (functions.push b), console⟩), ih]
    · simp [List.mapIdx_cons, value, Nat.add_comm 1, Nat.add_assoc]
    · simpa [Slot.ofBuiltIn] using distinct
    · exact (bind_of_ok alloc).trans (bind_of_ok turn)

theorem install_eq : install s.scopes.size ⟨s.withRoot [] #[], console⟩ =
    .ok () ⟨s.addRoot.2, console⟩ := by
  have first := install_constants s console constants [] (by decide)
  have second := install_functions s console globals
    (constants.map fun entry => .ofBuiltIn entry.1 entry.2) #[] (by decide)
  unfold install
  refine (bind_of_ok first).trans ((bind_of_ok second).trans ?_)
  simp only [Store.addRoot, rootSlots, Array.empty_append, Array.size_empty, Nat.zero_add]
  rfl

end BuiltIn

namespace Eval

theorem newRoot_eq (trace : List String) (span : Span) (world : World) (importStack : List Path)
    (callDepth : Nat) :
    newRoot trace span ⟨world, importStack, callDepth⟩ =
      .ok world.store.addRoot.1
        ⟨⟨world.store.addRoot.2, world.console⟩, importStack, callDepth⟩ := by
  have installed : ofEffect trace span (BuiltIn.install world.store.scopes.size)
      ⟨⟨(world.store.addScope none).2, world.console⟩, importStack, callDepth⟩ =
        .ok () ⟨⟨world.store.addRoot.2, world.console⟩, importStack, callDepth⟩ := by
    have empty : (world.store.addScope none).2 = world.store.withRoot [] #[] := by
      simp [Store.addScope, Store.withRoot, Scope.extend]
    simp only [ofEffect, empty, BuiltIn.install_eq]
  exact bind_of_ok installed

theorem newContext_eq (name : String) (s : Session) :
    newContext name s = .ok ⟨[name], s.world.store.addRoot.1⟩
      ⟨⟨s.world.store.addRoot.2, s.world.console⟩, s.importStack, s.callDepth⟩ :=
  bind_of_ok (newRoot_eq [] (.synthetic "<builtins>") s.world s.importStack s.callDepth)

end Eval

end BasicScript
