import BasicScript.Proofs.Outcome
import BasicScript.Proofs.Store.Growth
import BasicScript.Proofs.Store.Scope

/-! A forest of scopes is a forest of ordered tables. The tables are the reference: each has its
slots in the order of their declaration and the table above it, and a name means the nearest slot of
that name on the way up. Whatever is done to scopes, the answers and what is left are those of the
tables. -/

set_option autoImplicit false

namespace BasicScript

/-- A table of variables, in the order of their declaration, below another or on its own. -/
structure Table where
  parent : Option Handle
  slots : List Slot
  deriving DecidableEq

namespace Table

def slot? (table : Table) (name : String) : Option Slot := table.slots.find? (·.name == name)

def add (table : Table) (slot : Slot) : Table := { table with slots := table.slots ++ [slot] }

def set (table : Table) (name : String) (value : Value) : Table :=
  { table with slots := table.slots.modify (table.slots.findIdx (·.name == name)) ({ · with value }) }

def exports (table : Table) : List Slot := table.slots.filter (!·.builtIn)

end Table

/-- Tables by their handles, the oldest first. -/
abbrev Forest := List Table

namespace Forest

def slot? (forest : Forest) (h : Handle) (name : String) : Option Slot :=
  forest[h]?.bind (·.slot? name)

/-- The tables from `start` upward. There are no more of them than tables. -/
def chain (forest : Forest) (start : Option Handle) : (limit : Nat) → List Handle
  | 0 => []
  | limit + 1 =>
    match start with
    | none => []
    | some h => h :: forest.chain (forest[h]?.bind Table.parent) limit

@[simp] theorem chain_none (forest : Forest) (limit : Nat) : forest.chain none limit = [] := by
  cases limit <;> rfl

def nearest? (forest : Forest) (start : Option Handle) (name : String) : Option (Handle × Slot) :=
  (forest.chain start forest.length).findSome? fun h => (forest.slot? h name).map (h, ·)

def lookup (forest : Forest) (h : Handle) (name : String) : Except Fault Value :=
  match forest.nearest? (some h) name with
  | none => .error (.undefinedVariable name)
  | some (_, slot) => .ok slot.value

def declare (forest : Forest) (h : Handle) (slot : Slot) : Except Fault Forest :=
  match forest.slot? h slot.name with
  | some _ => .error (.duplicateDeclaration slot.name)
  | none => .ok (forest.modify h (·.add slot))

def assign (forest : Forest) (h : Handle) (name : String) (value : Value) : Except Fault Forest :=
  match forest.nearest? (some h) name with
  | none => .error (.undefinedVariable name)
  | some (owner, slot) =>
    if slot.constant then .error (.constantAssignment name)
    else .ok (forest.modify owner (·.set name value))

end Forest

inductive Scope.Operation where
  | new
  | withParent (parent : Handle)
  | declare (h : Handle) (name : String) (value : Value) (constant : Bool)
  | declareBuiltIn (h : Handle) (name : String) (value : Value)
  | assign (h : Handle) (name : String) (value : Value)
  | lookup (h : Handle) (name : String)
  | containsLocal (h : Handle) (name : String)
  | resolve (start : Option Handle) (name : String)
  | exports (h : Handle)

inductive Scope.Answer where
  | made (h : Handle)
  | done
  | value (v : Value)
  | truth (b : Bool)
  | owner (h : Option Handle)
  | slots (slots : List Slot)
  deriving DecidableEq

namespace Scope.Operation

def perform : Operation → Act Answer
  | .new => fun s => .ok (.made (s.addScope none).1) (s.addScope none).2
  | .withParent parent => fun s => .ok (.made (s.addScope parent).1) (s.addScope parent).2
  | .declare h name value constant => do
    Store.declare h name value constant
    return .done
  | .declareBuiltIn h name value => do
    Store.declareBuiltIn h name value
    return .done
  | .assign h name value => do
    Store.assign h name value
    return .done
  | .lookup h name => do
    return .value (← Act.readExcept (·.lookup h name))
  | .containsLocal h name => Act.read fun s => .truth (s.declares h name)
  | .resolve start name => Act.read fun s => .owner (s.resolve start name)
  | .exports h => Act.read fun s => .slots (s.exports h)

/-- The operation on tables: its answer and the tables after it, or a fault and no tables. -/
def refer (forest : Forest) : Operation → Except Fault (Answer × Forest)
  | .new => .ok (.made forest.length, forest ++ [⟨none, []⟩])
  | .withParent parent => .ok (.made forest.length, forest ++ [⟨some parent, []⟩])
  | .declare h name value constant => do
    return (.done, ← forest.declare h ⟨name, value, constant, false⟩)
  | .declareBuiltIn h name value => do
    return (.done, ← forest.declare h ⟨name, value, true, true⟩)
  | .assign h name value => do
    return (.done, ← forest.assign h name value)
  | .lookup h name => do
    return (.value (← forest.lookup h name), forest)
  | .containsLocal h name => .ok (.truth (forest.slot? h name).isSome, forest)
  | .resolve start name => .ok (.owner ((forest.nearest? start name).map Prod.fst), forest)
  | .exports h => .ok (.slots ((forest[h]?.map Table.exports).getD []), forest)

def onStore (operation : Operation) (s : Store) : Except Fault Answer × Store :=
  match operation.perform s with
  | .ok answer t => (.ok answer, t)
  | .error fault t => (.error fault, t)

def onForest (operation : Operation) (forest : Forest) : Except Fault Answer × Forest :=
  match operation.refer forest with
  | .ok (answer, next) => (.ok answer, next)
  | .error fault => (.error fault, forest)

def trace {σ : Type} (step : Operation → σ → Except Fault Answer × σ) :
    List Operation → σ → List (Except Fault Answer) × σ
  | [], state => ([], state)
  | operation :: rest, state =>
    let (answer, next) := step operation state
    let (answers, last) := trace step rest next
    (answer :: answers, last)

def count (n : Nat) : Operation → Nat
  | .new | .withParent _ => n + 1
  | _ => n

/-- Each new scope is below one that is there, of `n` at first. -/
def Grow : (n : Nat) → List Operation → Prop
  | _, [] => True
  | n, operation :: rest =>
    (∀ parent, operation = .withParent parent → parent < n) ∧ Grow (operation.count n) rest

end Scope.Operation

/-! ### Scopes as tables -/

theorem Table.modify_findIdx {slots : List Slot} (distinct : (slots.map Slot.name).Nodup)
    (name : String) (change : Slot → Slot) :
    slots.modify (slots.findIdx (·.name == name)) change =
      slots.map fun slot => if slot.name = name then change slot else slot := by
  induction slots with
  | nil => rfl
  | cons slot rest ih =>
    rw [List.map_cons, List.nodup_cons] at distinct
    rw [List.findIdx_cons, List.map_cons]
    cases same : slot.name == name with
    | true =>
      have others : ∀ other ∈ rest, (if other.name = name then change other else other) = other := by
        intro other inside
        refine if_neg fun named => distinct.1 ?_
        exact List.mem_map.mpr ⟨other, inside, named.trans (beq_iff_eq.mp same).symm⟩
      rw [if_pos (beq_iff_eq.mp same), List.map_congr_left others, List.map_id']
      rfl
    | false =>
      rw [if_neg (beq_eq_false_iff_ne.mp same), ← ih distinct.2]
      rfl

namespace Scope

variable {scope : Scope} {slot : Slot} {name : String} {value : Value}

def view (scope : Scope) : Table := ⟨scope.parent, scope.slots⟩

theorem view_slot? (scope : Scope) (name : String) : scope.view.slot? name = scope.slot? name := by
  cases first : scope.view.slot? name with
  | some slot =>
    have inside : slot ∈ scope.slots := List.mem_of_find?_eq_some first
    have named : slot.name = name := by simpa using List.find?_some first
    exact (named ▸ mem_slots.mp inside).symm
  | none =>
    refine (Option.eq_none_iff_forall_ne_some.mpr fun slot found => ?_).symm
    have named := name_of_slot? found
    have inside : slot ∈ scope.slots := mem_slots.mpr (named.symm ▸ found)
    exact List.find?_eq_none.mp first slot inside (beq_iff_eq.mpr named)

theorem view_insert (absent : scope.declares slot.name = false) :
    (scope.insert slot).view = scope.view.add slot := by
  rw [view, slots_insert absent]
  rfl

theorem view_put (scope : Scope) (name : String) (value : Value) :
    (scope.put name value).view = scope.view.set name value := by
  rw [view, slots_put, ← Table.modify_findIdx scope.names_nodup]
  rfl

end Scope

def Store.forest (s : Store) : Forest := s.scopes.toList.map Scope.view

namespace Store

variable {s t : Store} {h : Handle} {name : String}

theorem forest_getElem? (s : Store) (h : Handle) : s.forest[h]? = s.scopes[h]?.map Scope.view := by
  simp [forest]

@[simp] theorem forest_length (s : Store) : s.forest.length = s.scopes.size := by simp [forest]

theorem forest_slot? (s : Store) (h : Handle) (name : String) :
    s.forest.slot? h name = (s.scope h).slot? name := by
  rw [Forest.slot?, forest_getElem?, scope]
  cases s.scopes[h]? with
  | none => rfl
  | some scope => exact scope.view_slot? name

theorem forest_parent (s : Store) (h : Handle) :
    s.forest[h]?.bind Table.parent = (s.scope h).parent := by
  rw [forest_getElem?, scope]
  cases s.scopes[h]? <;> rfl

theorem forest_exports (s : Store) (h : Handle) :
    (s.forest[h]?.map Table.exports).getD [] = s.exports h := by
  rw [forest_getElem?, exports, scope]
  cases s.scopes[h]? <;> rfl

theorem forest_addScope (s : Store) (parent : Option Handle) :
    (s.addScope parent).2.forest = s.forest ++ [⟨parent, []⟩] := by
  rw [forest, addScope, Array.toList_push, List.map_append]
  rfl

/-- What changes a scope as its table is changed. -/
theorem forest_setScope {update : Scope → Scope} {change : Table → Table}
    (agree : (update (s.scope h)).view = change (s.scope h).view) :
    (s.setScope h update).forest = s.forest.modify h change := by
  refine List.ext_getElem? fun i => ?_
  rw [List.getElem?_modify, forest_getElem?, forest_getElem?, setScope_scopes, Array.getElem?_modify]
  split
  case isFalse => exact Option.map_id'.symm
  case isTrue here =>
    subst here
    cases found : s.scopes[h]? with
    | none => rfl
    | some scope =>
      rw [Store.scope, found, Option.getD_some] at agree
      exact congrArg some agree

end Store

/-! ### The way up -/

def Forest.Growing (forest : Forest) : Prop :=
  ∀ h parent, forest[h]?.bind Table.parent = some parent → parent < h

namespace Forest

variable {forest : Forest}

/-- A limit above the first handle is not met, since each step goes to an older table. -/
theorem chain_eq_chain (growing : forest.Growing) {h : Handle} {limit other : Nat}
    (enough : h < limit) (alsoEnough : h < other) :
    forest.chain (some h) limit = forest.chain (some h) other := by
  induction h using Nat.strongRecOn generalizing limit other with
  | ind h ih =>
    obtain ⟨limit, rfl⟩ := Nat.exists_eq_add_one_of_ne_zero (Nat.ne_zero_of_lt enough)
    obtain ⟨other, rfl⟩ := Nat.exists_eq_add_one_of_ne_zero (Nat.ne_zero_of_lt alsoEnough)
    rw [chain, chain]
    cases above : forest[h]?.bind Table.parent with
    | none => rw [chain_none, chain_none]
    | some parent =>
      have older : parent < h := growing h parent above
      rw [ih parent older (Nat.lt_of_lt_of_le older (Nat.le_of_lt_succ enough))
        (Nat.lt_of_lt_of_le older (Nat.le_of_lt_succ alsoEnough))]

@[simp] theorem nearest?_none (forest : Forest) (name : String) : forest.nearest? none name = none := by
  rw [nearest?, chain_none]
  rfl

/-- A name means the slot that a table has under it, or else what it means in the table above. -/
theorem nearest?_some (growing : forest.Growing) (h : Handle) (name : String) :
    forest.nearest? (some h) name =
      match forest.slot? h name with
      | some slot => some (h, slot)
      | none => forest.nearest? (forest[h]?.bind Table.parent) name := by
  cases size : forest.length with
  | zero =>
    -- there is no table
    cases List.length_eq_zero_iff.mp size
    exact (nearest?_none [] name).symm
  | succ limit =>
    rw [nearest?, size, chain, List.findSome?_cons]
    cases forest.slot? h name with
    | some slot => rfl
    | none =>
      cases above : forest[h]?.bind Table.parent with
      | none =>
        rw [chain_none, nearest?_none]
        rfl
      | some parent =>
        have older : parent < h := growing h parent above
        obtain ⟨table, there, _⟩ := Option.bind_eq_some_iff.mp above
        have inside : h < limit + 1 := size ▸ (List.getElem?_eq_some_iff.mp there).1
        have enough : parent < limit := Nat.lt_of_lt_of_le older (Nat.le_of_lt_succ inside)
        rw [nearest?, size, chain_eq_chain growing enough (Nat.lt_succ_of_lt enough)]
        rfl

end Forest

namespace Store

variable {s : Store} {h : Handle} {name : String}

theorem nearest?_forest (growing : s.forest.Growing) (start : Option Handle) (name : String) :
    s.forest.nearest? start name =
      (s.resolve start name).bind fun owner => ((s.scope owner).slot? name).map (owner, ·) := by
  cases start with
  | none => rw [Forest.nearest?_none, resolve, Option.bind_none, Option.bind_none]
  | some h =>
    rw [resolve, Option.bind_some]
    fun_induction s.owner? h name with
    | case1 h declared =>
      obtain ⟨slot, found⟩ := Option.isSome_iff_exists.mp (Scope.isSome_slot?.trans declared)
      rw [Forest.nearest?_some growing, forest_slot?, Option.bind_some, found]
      rfl
    | case2 h absent top =>
      have none : (s.scope h).slot? name = none :=
        Scope.slot?_eq_none_iff.mpr (Bool.eq_false_iff.mpr absent)
      rw [Forest.nearest?_some growing, forest_slot?, none, forest_parent, top]
      exact Forest.nearest?_none s.forest name
    | case3 h absent parent above older ih =>
      have none : (s.scope h).slot? name = none :=
        Scope.slot?_eq_none_iff.mpr (Bool.eq_false_iff.mpr absent)
      rw [Forest.nearest?_some growing, forest_slot?, none, forest_parent, above]
      exact ih
    | case4 h absent parent above notOlder =>
      exact absurd (growing h parent ((forest_parent s h).trans above)) notOlder

end Store

/-! ### Operations -/

/-- An act does to the scopes of a store what is expected of its tables. If a fault is expected, it
leaves the store as it was. -/
def Act.Agrees {α : Type} (act : Act α) (s : Store) : Except Fault (α × Forest) → Prop
  | .ok (a, forest) => ∃ t, act s = .ok a t ∧ t.forest = forest
  | .error fault => act s = .error fault s

namespace Act.Agrees

variable {α β : Type} {act : Act α} {s : Store}

theorem readExcept (look : Store → Except Fault α) (f : α → β) :
    Act.Agrees (do return f (← Act.readExcept look)) s (do return (f (← look s), s.forest)) := by
  cases seen : look s with
  | ok a =>
    have done : Act.readExcept look s = .ok a s := by rw [Act.readExcept, seen, Act.lift]
    exact ⟨s, by rw [bind_of_ok done]; rfl, rfl⟩
  | error fault =>
    have failed : Act.readExcept look s = .error fault s := by rw [Act.readExcept, seen, Act.lift]
    exact bind_of_error failed

theorem andThen {act : Act Unit} {expected : Except Fault Forest}
    (agrees : act.Agrees s (do return ((), ← expected))) (a : α) :
    Act.Agrees (do act; return a) s (do return (a, ← expected)) := by
  cases expected with
  | ok forest =>
    obtain ⟨t, done, left⟩ := agrees
    exact ⟨t, by rw [bind_of_ok done]; rfl, left⟩
  | error fault => exact bind_of_error agrees

end Act.Agrees

namespace Store

variable {s : Store}

theorem declareSlot_agrees (h : Handle) (slot : Slot) :
    (declareSlot h slot).Agrees s (do return ((), ← s.forest.declare h slot)) := by
  rw [Forest.declare, forest_slot?]
  cases declared : s.declares h slot.name with
  | true =>
    obtain ⟨found, here⟩ := Option.isSome_iff_exists.mp (Scope.isSome_slot?.trans declared)
    rw [here]
    exact if_pos declared
  | false =>
    rw [Scope.slot?_eq_none_iff.mpr declared]
    exact ⟨_, if_neg (Bool.eq_false_iff.mp declared), forest_setScope (Scope.view_insert declared)⟩

theorem assign_agrees (growing : s.forest.Growing) (h : Handle) (name : String) (value : Value) :
    (assign h name value).Agrees s (do return ((), ← s.forest.assign h name value)) := by
  have nearest := nearest?_forest growing (some h) name
  rw [resolve, Option.bind_some] at nearest
  cases above : s.owner? h name with
  | none =>
    have failed : assign h name value s = .error (.undefinedVariable name) s := by
      rw [assign_eq, above]
    rw [Forest.assign, nearest, above]
    exact failed
  | some owner =>
    obtain ⟨slot, found⟩ := exists_slot_of_owner? above
    have acts : assign h name value s =
        if slot.constant then .error (.constantAssignment name) s
        else .ok () (s.setScope owner (·.put name value)) := by
      rw [assign_eq, above]
      simp only [assignIn, found, Option.any_some]
    have expected : s.forest.assign h name value =
        if slot.constant then .error (.constantAssignment name)
        else .ok (s.forest.modify owner (·.set name value)) := by
      rw [Forest.assign, nearest, above, Option.bind_some, found]
      rfl
    rw [expected]
    cases constant : slot.constant with
    | true => exact acts.trans (if_pos constant)
    | false =>
      refine ⟨_, acts.trans (if_neg (Bool.eq_false_iff.mp constant)), ?_⟩
      exact forest_setScope (Scope.view_put _ name value)

theorem lookup_forest (growing : s.forest.Growing) (h : Handle) (name : String) :
    s.forest.lookup h name = s.lookup h name := by
  rw [Forest.lookup, nearest?_forest growing, resolve, Option.bind_some, lookup, slot?_eq]
  cases s.owner? h name with
  | none => rfl
  | some owner =>
    rw [Option.bind_some, Option.bind_some]
    cases (s.scope owner).slot? name <;> rfl

theorem resolve_forest (growing : s.forest.Growing) (start : Option Handle) (name : String) :
    (s.forest.nearest? start name).map Prod.fst = s.resolve start name := by
  rw [nearest?_forest growing]
  cases start with
  | none => rfl
  | some h =>
    rw [resolve, Option.bind_some]
    cases above : s.owner? h name with
    | none => rfl
    | some owner =>
      obtain ⟨slot, found⟩ := exists_slot_of_owner? above
      rw [Option.bind_some, found]
      rfl

end Store

namespace Scope.Operation

variable {s : Store}

/-- Each operation on the scopes of a store does what it does to their tables. -/
theorem perform_agrees (growing : s.forest.Growing) (operation : Operation) :
    operation.perform.Agrees s (operation.refer s.forest) := by
  cases operation with
  | new =>
    rw [refer, Store.forest_length]
    exact ⟨_, rfl, s.forest_addScope none⟩
  | withParent parent =>
    rw [refer, Store.forest_length]
    exact ⟨_, rfl, s.forest_addScope parent⟩
  | declare h name value constant => exact (Store.declareSlot_agrees h _).andThen _
  | declareBuiltIn h name value => exact (Store.declareSlot_agrees h _).andThen _
  | assign h name value => exact (Store.assign_agrees growing h name value).andThen _
  | lookup h name =>
    rw [refer, Store.lookup_forest growing]
    exact .readExcept (·.lookup h name) Answer.value
  | containsLocal h name =>
    rw [refer, Store.forest_slot?, isSome_slot?]
    exact ⟨s, rfl, rfl⟩
  | resolve start name =>
    rw [refer, Store.resolve_forest growing]
    exact ⟨s, rfl, rfl⟩
  | exports h =>
    rw [refer, Store.forest_exports]
    exact ⟨s, rfl, rfl⟩

/-- What an operation can do to a store. -/
theorem onStore_cases (growing : s.forest.Growing) (operation : Operation) :
    (∃ answer t, operation.refer s.forest = .ok (answer, t.forest) ∧
      operation.onStore s = (.ok answer, t)) ∨
    ∃ fault, operation.refer s.forest = .error fault ∧ operation.onStore s = (.error fault, s) := by
  have agrees := perform_agrees growing operation
  cases expected : operation.refer s.forest with
  | ok result =>
    rw [expected] at agrees
    obtain ⟨t, done, left⟩ := agrees
    exact .inl ⟨result.1, t, left ▸ rfl, by rw [onStore, done]⟩
  | error fault =>
    rw [expected] at agrees
    have failed : operation.perform s = .error fault s := agrees
    exact .inr ⟨fault, rfl, by rw [onStore, failed]⟩

/-- One step: what comes of an operation is the same, and so are the tables after it. -/
theorem onStore_forest (growing : s.forest.Growing) (operation : Operation) :
    (operation.onStore s).1 = (operation.onForest s.forest).1 ∧
      (operation.onStore s).2.forest = (operation.onForest s.forest).2 := by
  rw [onForest]
  obtain ⟨answer, t, expected, done⟩ | ⟨fault, expected, failed⟩ := onStore_cases growing operation
  · rw [expected, done]
    exact ⟨rfl, rfl⟩
  · rw [expected, failed]
    exact ⟨rfl, rfl⟩

/-- An operation that fails changes nothing. -/
theorem onStore_of_failed (growing : s.forest.Growing) {operation : Operation} {fault : Fault}
    (failed : (operation.onStore s).1 = .error fault) : (operation.onStore s).2 = s := by
  obtain ⟨answer, t, _, done⟩ | ⟨_, _, unchanged⟩ := onStore_cases growing operation
  · rw [done] at failed
    cases failed
  · rw [unchanged]

end Scope.Operation

namespace Forest

variable {forest next : Forest}

theorem Growing.append (growing : forest.Growing) {parent : Option Handle}
    (older : ∀ above, parent = some above → above < forest.length) :
    Growing (forest ++ [⟨parent, []⟩]) := by
  intro h above found
  rw [List.getElem?_append] at found
  split at found
  case isTrue => exact growing h above found
  case isFalse outside =>
    -- only the new table is there
    obtain ⟨table, last, below⟩ := Option.bind_eq_some_iff.mp found
    cases List.mem_singleton.mp (List.mem_of_getElem? last)
    exact Nat.lt_of_lt_of_le (older above below) (Nat.le_of_not_lt outside)

theorem Growing.modify (growing : forest.Growing) (h : Handle) {change : Table → Table}
    (fixed : ∀ table, (change table).parent = table.parent) : Growing (forest.modify h change) := by
  intro i above found
  obtain ⟨table, there, below⟩ := Option.bind_eq_some_iff.mp found
  rw [List.getElem?_modify] at there
  obtain ⟨before, unchanged, rfl⟩ := Option.map_eq_some_iff.mp there
  refine growing i above ?_
  rw [unchanged, Option.bind_some, ← below]
  split
  · exact (fixed before).symm
  · rfl

theorem Growing.declare {h : Handle} {slot : Slot} (growing : forest.Growing)
    (done : forest.declare h slot = .ok next) : next.Growing ∧ next.length = forest.length := by
  rw [Forest.declare] at done
  split at done
  · cases done
  · cases done
    exact ⟨growing.modify h fun _ => rfl, List.length_modify ..⟩

theorem Growing.assign {h : Handle} {name : String} {value : Value} (growing : forest.Growing)
    (done : forest.assign h name value = .ok next) : next.Growing ∧ next.length = forest.length := by
  rw [Forest.assign] at done
  split at done
  · cases done
  case h_2 owner slot _ =>
    split at done
    · cases done
    · cases done
      exact ⟨growing.modify owner fun _ => rfl, List.length_modify ..⟩

end Forest

namespace Scope.Operation

variable {s : Store}

/-- The tables keep growing. -/
theorem onForest_growing {forest : Forest} (growing : forest.Growing) {operation : Operation}
    (below : ∀ parent, operation = .withParent parent → parent < forest.length) :
    Forest.Growing (operation.onForest forest).2 ∧
      (operation.onForest forest).2.length = operation.count forest.length := by
  cases operation with
  | new => exact ⟨growing.append (fun _ => nofun), List.length_append⟩
  | withParent parent =>
    refine ⟨growing.append fun above same => ?_, List.length_append⟩
    exact below above (congrArg withParent (Option.some.inj same))
  | declare h name value constant =>
    rw [onForest, refer]
    cases done : forest.declare h ⟨name, value, constant, false⟩ with
    | ok next => exact growing.declare done
    | error => exact ⟨growing, rfl⟩
  | declareBuiltIn h name value =>
    rw [onForest, refer]
    cases done : forest.declare h ⟨name, value, true, true⟩ with
    | ok next => exact growing.declare done
    | error => exact ⟨growing, rfl⟩
  | assign h name value =>
    rw [onForest, refer]
    cases done : forest.assign h name value with
    | ok next => exact growing.assign done
    | error => exact ⟨growing, rfl⟩
  | lookup h name =>
    rw [onForest, refer]
    cases forest.lookup h name <;> exact ⟨growing, rfl⟩
  | containsLocal | resolve | exports => exact ⟨growing, rfl⟩

/-- One operation after the other, stores and tables go on alike. -/
theorem trace_forest {operations : List Operation} (growing : s.forest.Growing)
    (grow : Grow s.scopes.size operations) :
    let run := trace onStore operations s
    let reference := trace onForest operations s.forest
    run.1 = reference.1 ∧ run.2.forest = reference.2 ∧ run.2.forest.Growing := by
  induction operations generalizing s with
  | nil => exact ⟨rfl, rfl, growing⟩
  | cons operation rest ih =>
    obtain ⟨below, grow⟩ := grow
    obtain ⟨same, left⟩ := onStore_forest growing operation
    obtain ⟨grown, count⟩ := onForest_growing growing (s.forest_length.symm ▸ below)
    rw [← left, Store.forest_length, Store.forest_length] at count
    rw [← left] at grown
    obtain ⟨answers, last, grown⟩ := ih grown (count ▸ grow)
    simp only [trace]
    rw [← same, ← left, answers, last]
    exact ⟨rfl, rfl, last ▸ grown⟩

/-- Scopes behave as chains of ordered tables. Whatever is done to them one after the other, the
answers and the faults are those of the tables, and what is left is what is left of the tables. No
table has a name twice, and after any of it an operation that fails changes nothing. -/
theorem runs_as_tables {operations : List Operation} (growing : s.forest.Growing)
    (grow : Grow s.scopes.size operations) :
    (trace onStore operations s).1 = (trace onForest operations s.forest).1 ∧
      (trace onStore operations s).2.forest = (trace onForest operations s.forest).2 ∧
      (∀ table ∈ (trace onStore operations s).2.forest, (table.slots.map Slot.name).Nodup) ∧
      ∀ (operation : Operation) (fault : Fault),
        (operation.onStore (trace onStore operations s).2).1 = .error fault →
          (operation.onStore (trace onStore operations s).2).2 = (trace onStore operations s).2 := by
  obtain ⟨answers, left, grown⟩ := trace_forest growing grow
  refine ⟨answers, left, fun table inside => ?_, fun _ _ => onStore_of_failed grown⟩
  obtain ⟨scope, _, rfl⟩ := List.mem_map.mp inside
  exact scope.names_nodup

/-- A root scope and one below it, both with an `x`: a constant and a variable that hides it. -/
def nested : List Operation :=
  [.new, .declareBuiltIn 0 "print" .null, .declare 0 "x" (.boolean false) true, .withParent 0,
    .declare 1 "y" .null false, .declare 1 "x" .null false, .declare 1 "x" .null true,
    .assign 1 "x" (.boolean true), .assign 0 "x" .null, .assign 1 "z" .null, .lookup 1 "x",
    .lookup 0 "x", .containsLocal 1 "print", .resolve (some 1) "print", .exports 0, .exports 1]

theorem runs_as_tables_nested :
    (trace onStore nested {}).1 =
      [.ok (.made 0), .ok .done, .ok .done, .ok (.made 1), .ok .done, .ok .done,
        .error (.duplicateDeclaration "x"), .ok .done, .error (.constantAssignment "x"),
        .error (.undefinedVariable "z"), .ok (.value (.boolean true)), .ok (.value (.boolean false)),
        .ok (.truth false), .ok (.owner (some 0)),
        .ok (.slots [⟨"x", .boolean false, true, false⟩]),
        .ok (.slots [⟨"y", .null, false, false⟩, ⟨"x", .boolean true, false, false⟩])] := by
  have growing : ({} : Store).forest.Growing := nofun
  have grow : Grow ({} : Store).scopes.size nested := by simp [Grow, nested, count]
  exact (runs_as_tables growing grow).1.trans (by rfl)

end Scope.Operation

end BasicScript
