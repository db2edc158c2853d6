import BasicScript.Proofs.Evaluate.Scoping

/-! Loops over lists as traversals. A loop looks at its list anew on each turn and assigns to its
variable as any statement would. If the turns leave the list alone, this comes down to going through
the items that the list had at first: each is put into the slot of the variable, and the body runs.
-/

set_option autoImplicit false

namespace BasicScript

namespace Store

def HasVariable (s : Store) (h : Handle) (name : String) : Prop :=
  ∃ slot, (s.scope h).slot? name = some slot ∧ slot.constant = false

namespace HasVariable

variable {s t : Store} {h : Handle} {name : String} {may : Handle → Prop}

theorem lt (has : s.HasVariable h name) : h < s.scopes.size := by
  obtain ⟨slot, found, _⟩ := has
  by_contra beyond
  rw [scope, Array.getElem?_eq_none (Nat.le_of_not_lt beyond)] at found
  cases found

theorem declares (has : s.HasVariable h name) : s.declares h name = true := by
  obtain ⟨slot, found, _⟩ := has
  rw [Store.declares, ← Scope.isSome_slot?, found]
  rfl

theorem put (has : s.HasVariable h name) (value : Value) :
    ∃ slot, ((s.setScope h (·.put name value)).scope h).slot? name = some slot ∧
      slot.constant = false ∧ slot.value = value := by
  have inside := has.lt
  obtain ⟨slot, found, free⟩ := has
  refine ⟨{ slot with value }, ?_, free, rfl⟩
  rw [scope_setScope, if_pos ⟨rfl, inside⟩, Scope.slot?_put, if_pos rfl, found]
  rfl

/-- No run removes a variable from its scope or makes it a constant. -/
theorem becomes (has : s.HasVariable h name) (after : s.Becomes may t) : t.HasVariable h name := by
  have inside := has.lt
  obtain ⟨slot, found, free⟩ := has
  have named := Scope.name_of_slot? found
  rw [← named, ← Scope.mem_slots] at found
  obtain ⟨i, there⟩ := List.mem_iff_getElem?.mp found
  obtain ⟨later, there, kept⟩ := (after.scopes inside).kept there
  refine ⟨later, ?_, kept.constant.trans free⟩
  rw [← named, ← kept.name]
  exact Scope.mem_slots.mp (List.mem_of_getElem? there)

end HasVariable

end Store

namespace Session

def withStore (s : Session) (store : Store) : Session :=
  ⟨⟨store, s.world.console⟩, s.importStack, s.callDepth⟩

def put (s : Session) (h : Handle) (name : String) (value : Value) : Session :=
  s.withStore (s.world.store.setScope h (·.put name value))

def clear (s : Session) (h : Handle) (name : String) : Session :=
  if s.world.store.declares h name then s.put h name .null
  else s.withStore (s.world.store.setScope h (·.insert ⟨name, .null, false, false⟩))

def below (s : Session) (h : Handle) : Session := s.withStore (s.world.store.addScope (some h)).2

end Session

namespace Evaluator

section

variable (evaluate : Evaluator) (frame : Frame) (item : String) (body : List Node)

/-- The body of a loop for one value: this is put into the slot that the scope of the loop has for
the variable, and the body runs in a new scope below. -/
def visit (value : Value) (s : Session) : EStateM.Result Interrupt Session Unit :=
  let s := s.put frame.scope item value
  block evaluate (frame.iteration s.world.store.scopes.size) body (s.below frame.scope)

/-- The body for one value after the other. It may end the traversal before each had its turn. -/
def traverse : List Value → Eval Value
  | [], s => .ok .null s
  | value :: rest, s =>
    match visit evaluate frame item body value s with
    | .ok _ t | .error (.nextTurn _) t => traverse rest t
    | .error (.exitLoop _) t => .ok .null t
    | .error stop t => .error stop t

/-- The turns of a loop that looks at its list anew on each of them, from the item `index` on: the
sessions in which they begin and end. -/
def turns (list : Handle) : Nat → Nat → Session → List (Session × Session)
  | 0, _, _ => []
  | fuel + 1, index, s =>
    match (s.world.store.items list)[index]? with
    | none => []
    | some value =>
      match visit evaluate frame item body value s with
      | .ok _ t | .error (.nextTurn _) t => (s, t) :: turns list fuel (index + 1) t
      | .error _ t => [(s, t)]

end

variable {host : Host} {fuel n index : Nat} {s t : Session} {frame : Frame} {item : String}
  {itemSpan : Span} {list : Handle} {body : List Node} {value : Value}

theorem final_visit_hasVariable (has : s.world.store.HasVariable frame.scope item) (value : Value) :
    (Eval.final (visit (evaluate host fuel) frame item body value) s).world.store.HasVariable
      frame.scope item := by
  obtain ⟨slot, found, free, _⟩ := has.put value
  have begun : (s.put frame.scope item value).world.store.HasVariable frame.scope item :=
    ⟨slot, found, free⟩
  have becomes : (s.put frame.scope item value).world.store.Becomes (fun _ => False) (Eval.final
      (turn (evaluate host fuel) frame body) (s.put frame.scope item value)).world.store :=
    turn_becomes body
  rw [final_turn] at becomes
  exact begun.becomes becomes

theorem assign_eq_put (has : s.world.store.HasVariable frame.scope item) (value : Value) :
    Eval.ofAct frame itemSpan (Store.assign frame.scope item value) s =
      .ok () (s.put frame.scope item value) := by
  have declared := has.declares
  obtain ⟨slot, found, free⟩ := has
  have assigned : Store.assign frame.scope item value s.world.store =
      .ok () (s.world.store.setScope frame.scope (·.put item value)) := by
    rw [Store.assign, if_pos declared, Store.assignIn, found]
    simp only [Option.any_some, free, Bool.false_eq_true, ↓reduceIte]
  simp only [Eval.ofAct, Eval.ofEffect, Effect.ofAct, assigned]
  rfl

theorem forItems_none (done : (s.world.store.items list)[index]? = none) :
    forItems (evaluate host fuel) frame item itemSpan list body (n + 1) index s = .ok .null s := by
  simp only [forItems, bind, EStateM.bind, Eval.read, done]
  rfl

theorem forItems_some (has : s.world.store.HasVariable frame.scope item)
    (found : (s.world.store.items list)[index]? = some value) :
    forItems (evaluate host fuel) frame item itemSpan list body (n + 1) index s =
      match visit (evaluate host fuel) frame item body value s with
      | .ok _ t | .error (.nextTurn _) t =>
        forItems (evaluate host fuel) frame item itemSpan list body n (index + 1) t
      | .error (.exitLoop _) t => .ok .null t
      | .error stop t => .error stop t := by
  have turned : turn (evaluate host fuel) frame body (s.put frame.scope item value) =
      turnEnd (visit (evaluate host fuel) frame item body value s) := by
    rw [turn_eq]
    rfl
  simp only [forItems, bind, EStateM.bind, Eval.read, found, assign_eq_put has, turned]
  cases visit (evaluate host fuel) frame item body value s with
  | ok _ t => rfl
  | error stop t => cases stop <;> rfl

/-- A loop whose turns leave the list alone goes through what is left of the list, unless its fuel
does not suffice for that. -/
theorem forItems_traverses (itemSpan : Span) (has : s.world.store.HasVariable frame.scope item)
    (steady : ∀ turn ∈ turns (evaluate host fuel) frame item body list n index s,
      turn.2.world.store.items list = turn.1.world.store.items list) :
    let left := (s.world.store.items list).toList.drop index
    let loop := forItems (evaluate host fuel) frame item itemSpan list body n index s
    loop = traverse (evaluate host fuel) frame item body left s ∨
      n ≤ left.length ∧ ∃ u, loop = .error .exhausted u := by
  -- on the turns that there is fuel for; each begins with the items that the one before has left
  induction n generalizing index s with
  | zero => exact .inr ⟨Nat.zero_le _, s, rfl⟩
  | succ n ih =>
    intro left loop
    cases found : (s.world.store.items list)[index]? with
    | none =>
      have gone : left = [] := by
        rw [← Array.getElem?_toList, List.getElem?_eq_none_iff] at found
        exact List.drop_eq_nil_of_le found
      rw [gone]
      exact .inl (forItems_none found)
    | some value =>
      obtain ⟨inside, same⟩ := Array.getElem?_eq_some_iff.mp found
      have more : left = value :: (s.world.store.items list).toList.drop (index + 1) := by
        rw [← same]
        exact List.drop_eq_getElem_cons inside
      have kept : (Eval.final (visit (evaluate host fuel) frame item body value)
          s).world.store.HasVariable frame.scope item := final_visit_hasVariable has value
      have step : loop = _ := forItems_some has found
      rw [step, more, traverse]
      simp only [turns, found] at steady
      have goesOn {t : Session} (kept : t.world.store.HasVariable frame.scope item)
          (steady : ∀ turn ∈
            (s, t) :: turns (evaluate host fuel) frame item body list n (index + 1) t,
              turn.2.world.store.items list = turn.1.world.store.items list) :
          let left := (s.world.store.items list).toList.drop (index + 1)
          let loop := forItems (evaluate host fuel) frame item itemSpan list body n (index + 1) t
          loop = traverse (evaluate host fuel) frame item body left t ∨
            n ≤ left.length ∧ ∃ u, loop = .error .exhausted u := by
        have same : t.world.store.items list = s.world.store.items list :=
          steady (s, t) List.mem_cons_self
        rw [← same]
        exact ih kept fun turn inside => steady turn (List.mem_cons_of_mem _ inside)
      rw [List.length_cons, Nat.add_le_add_iff_right]
      unfold Eval.final at kept
      generalize visit (evaluate host fuel) frame item body value s = outcome at kept steady ⊢
      cases outcome with
      | ok _ t => exact goesOn kept steady
      | error stop t =>
        cases stop with
        | nextTurn _ => exact goesOn kept steady
        | exitLoop _ | exitFunction _ | failed _ | exhausted => exact .inl rfl

/-- The variable of a loop is null before the first turn. -/
theorem bindItem_eq_clear (itemSpan : Span) (there : frame.scope < s.world.store.scopes.size)
    (free : ((s.world.store.scope frame.scope).slot? item).any (·.constant) = false) :
    bindItem frame item itemSpan s = .ok () (s.clear frame.scope item) ∧
      ∃ slot, ((s.clear frame.scope item).world.store.scope frame.scope).slot? item = some slot ∧
        slot.constant = false ∧ slot.value = .null := by
  simp only [bindItem, bind, EStateM.bind, Eval.read, Session.clear]
  cases declared : s.world.store.declares frame.scope item with
  | true =>
    obtain ⟨slot, found⟩ := Option.isSome_iff_exists.mp (Scope.isSome_slot?.trans declared)
    have has : s.world.store.HasVariable frame.scope item :=
      ⟨slot, found, by simpa [found] using free⟩
    exact ⟨assign_eq_put has .null, has.put .null⟩
  | false =>
    refine ⟨?_, ⟨item, .null, false, false⟩, ?_, rfl, rfl⟩
    · simp only [Bool.false_eq_true, ↓reduceIte, Eval.ofAct, Eval.ofEffect, Effect.ofAct,
        Store.declare, Store.declareSlot, declared]
      rfl
    · simp only [Bool.false_eq_true, ↓reduceIte, Session.withStore]
      rw [Store.scope_setScope, if_pos ⟨rfl, there⟩, Scope.slot?_insert, if_pos rfl]

/-- A loop whose variable is no constant and whose turns leave the list alone. The variable is null
at first. From there on the loop is the traversal of the items that the list has at the beginning,
in which nothing but the body can fail. It is cut off before only for want of fuel, when there is no
more fuel than there are items. -/
theorem forLoop_traverses (host : Host) (fuel : Nat) (frame : Frame) (item : String)
    (itemSpan : Span) (iterable : Node) (body : List Node) (span : Span) (list : Handle)
    {s t : Session}
    (there : frame.scope < s.world.store.scopes.size)
    (found : evaluate host fuel iterable frame s = .ok (.list list) t)
    (free : ((t.world.store.scope frame.scope).slot? item).any (·.constant) = false)
    (steady : ∀ turn ∈ turns (evaluate host fuel) frame item body list fuel 0
      (t.clear frame.scope item), turn.2.world.store.items list = turn.1.world.store.items list) :
    let begun := t.clear frame.scope item
    let items := (t.world.store.items list).toList
    let loop := evaluate host (fuel + 1) (.forLoop item itemSpan iterable body span) frame s
    bindItem frame item itemSpan t = .ok () begun ∧
      ((begun.world.store.scope frame.scope).slot? item).map (·.value) = some .null ∧
      (loop = traverse (evaluate host fuel) frame item body items begun ∨
        fuel ≤ items.length ∧ ∃ u, loop = .error .exhausted u) := by
  intro begun items loop
  have becomes : s.world.store.Becomes (· = frame.scope)
      (Eval.final (evaluate host fuel iterable frame) s).world.store :=
    evaluate_becomes iterable
  simp only [Eval.final, found] at becomes
  -- from here on the scope has the variable, and nothing takes it away
  obtain ⟨cleared, slot, named, loose, null⟩ :=
    bindItem_eq_clear itemSpan (Nat.lt_of_lt_of_le there becomes.size) free
  refine ⟨cleared, by rw [named]; exact congrArg some null, ?_⟩
  have same : begun.world.store.items list = t.world.store.items list := by
    simp only [begun, Session.clear]
    split <;> rfl
  have looped : loop = forItems (evaluate host fuel) frame item itemSpan list body fuel 0 begun := by
    simp only [loop, begun, evaluate, step, forLoop, bind, EStateM.bind, found, cleared]
  have whole := forItems_traverses (s := begun) itemSpan ⟨slot, named, loose⟩ steady
  rw [same, List.drop_zero] at whole
  rw [looped]
  exact whole

/-- A loop whose body assigns to the variable and goes on with the next turn. -/
theorem forLoop_traverses_reassigned :
    let s : Session := { world := { store := ({} : Store).addRoot.2 } }
    let store := (({} : Store).addRoot.2.addList #[.string "a", .string "b"]).2
    let t : Session := { world := { store } }
    let frame : Frame := .root ⟨["main"], 0⟩
    let iterable : Node := .list [.string "a" default, .string "b" default] default
    let body : List Node := [.assign "x" none (.string "seen" default) default, .nextTurn default]
    frame.scope < s.world.store.scopes.size ∧
      evaluate default 3 iterable frame s = .ok (.list 0) t ∧
      ((t.world.store.scope frame.scope).slot? "x").any (·.constant) = false ∧
      (∀ turn ∈ turns (evaluate default 3) frame "x" body 0 3 0 (t.clear frame.scope "x"),
        turn.2.world.store.items 0 = turn.1.world.store.items 0) ∧
      evaluate default 4 (.forLoop "x" default iterable body default) frame s =
        traverse (evaluate default 3) frame "x" body [.string "a", .string "b"]
          (t.clear frame.scope "x") := by
  intro s store t frame iterable body
  have there : frame.scope < s.world.store.scopes.size := by decide
  have found : evaluate default 3 iterable frame s = .ok (.list 0) t := rfl
  have free : ((t.world.store.scope frame.scope).slot? "x").any (·.constant) = false := by
    decide +kernel
  have steady : ∀ turn ∈ turns (evaluate default 3) frame "x" body 0 3 0
      (t.clear frame.scope "x"), turn.2.world.store.items 0 = turn.1.world.store.items 0 := by
    decide +kernel
  have whole := (forLoop_traverses default 3 frame "x" default iterable body default 0 there found
    free steady).2.2
  exact ⟨there, found, free, steady,
    whole.resolve_right fun short => absurd short.1 (by decide +kernel)⟩

end Evaluator

end BasicScript
