import BasicScript.Proofs.Evaluate.Signal
import BasicScript.Proofs.Node.Span

/-! Where the faults of a run are reported. Each rule of the evaluator reports at its node, at a
child of it or at the variable of a loop. So whatever holds of all these places in a program, in the
functions that it finds in the store and in the files that it may read, holds of the place of its
fault. -/

set_option autoImplicit false

namespace BasicScript

namespace Node

/-- The node, all that is below it and the variables of its loops are at places as `P` says. -/
def Located (P : Span → Prop) (root : Node) : Prop :=
  ∀ node, Within node root → P node.span ∧ ∀ part ∈ node.parts, P part

def TextLocated (P : Span → Prop) (name text : String) : Prop :=
  match ofText name text with
  | .ok nodes => ∀ node ∈ nodes, node.Located P
  | .error d => P d.span

namespace Located

variable {P : Span → Prop} {root : Node}

theorem span (located : root.Located P) : P root.span := (located root (.root root)).1

theorem part (located : root.Located P) {part : Span} (inside : part ∈ root.parts) : P part :=
  (located root (.root root)).2 part inside

theorem child (located : root.Located P) {child : Node} (inside : child ∈ root.children) :
    child.Located P := fun node within => located node (.child inside within)

theorem mono {Q : Span → Prop} (located : root.Located P) (weaker : ∀ span, P span → Q span) :
    root.Located Q := fun node within =>
  ⟨weaker _ (located node within).1, fun part inside => weaker _ ((located node within).2 part inside)⟩

end Located

theorem TextLocated.nodes {P : Span → Prop} {name text : String} {nodes : List Node}
    (located : TextLocated P name text) (parsed : ofText name text = .ok nodes) :
    ∀ node ∈ nodes, node.Located P := by
  rwa [TextLocated, parsed] at located

end Node

def Store.Located (P : Span → Prop) (s : Store) : Prop :=
  ∀ f ∈ s.functions, ∀ node ∈ f.body, node.Located P

def Interrupt.Located (P : Span → Prop) : Interrupt → Prop
  | .failed d => P d.span
  | .exitFunction _ | .exitLoop _ | .nextTurn _ | .exhausted => True

theorem Interrupt.Located.withNote {P : Span → Prop} {x : Interrupt} (located : x.Located P)
    (note : String) : (x.withNote note).Located P := by
  cases x with
  | failed _ => exact located
  | exitFunction _ | exitLoop _ | nextTurn _ | exhausted => trivial

theorem Store.Located.mono {P Q : Span → Prop} {s : Store} (located : s.Located P)
    (weaker : ∀ span, P span → Q span) : s.Located Q :=
  fun f inside node within => (located f inside node within).mono weaker

theorem Store.Located.body {P : Span → Prop} {s : Store} (located : s.Located P) (h : Handle) :
    ∀ node ∈ (s.functions[h]?.getD default).body, node.Located P := by
  cases found : s.functions[h]? with
  | none => exact List.forall_mem_nil _
  | some f => exact located f (Array.mem_of_getElem? found)

def Host.FilesLocated (P : Span → Prop) (host : Host) : Prop :=
  ∀ path text, host.files.read path = .ok text → Node.TextLocated P path.text text

def Discipline.located (P : Span → Prop) : Discipline where
  holds := Store.Located P
  owns _ _ := True
  sees _ _ := True
  runs _ _ := True
  trusts _ := True
  raises _ := True
  bodies body := ∀ node ∈ body, node.Located P
  mutates := True
  allows _ := True
  owns_mono _ _ := trivial
  runs_mono _ _ := trivial
  sees_of_runs _ := trivial
  owns_plain _ := trivial
  owns_variable _ _ _ := trivial
  owns_export _ _ _ := trivial
  owns_item _ _ _ := trivial
  owns_entry _ _ _ := ⟨trivial, trivial⟩
  owns_member _ _ _ := trivial
  sees_closure _ _ := trivial
  action_within _ _ := within_anything _
  owns_answer _ _ _ _ := trivial
  raises_runtime _ := trivial
  raises_refusal _ _ := trivial
  root_added located := ⟨located, trivial⟩
  scope_added located _ := ⟨located, trivial⟩
  list_added located _ := ⟨located, trivial⟩
  dictionary_added located _ _ := ⟨located, trivial⟩
  function_added located _ body := by
    refine ⟨fun f inside => ?_, trivial⟩
    rcases Array.mem_push.mp inside with inside | rfl
    · exact located f inside
    · exact body
  builtIn_added located _ := ⟨located, trivial⟩
  module_added located _ := ⟨located, trivial⟩
  items_changed located _ _ _ _ := located
  entries_changed located _ _ _ _ := located
  slot_added located _ _ _ _ := located
  slot_changed located _ _ _ _ := located

instance (P : Span → Prop) : (Discipline.located P).Lax := ⟨fun _ => trivial⟩

inductive LocatedEnd {α : Type} (P : Span → Prop) (fits : α → Prop) :
    EStateM.Result Interrupt Session α → Prop
  | value {a : α} {t : Session} (store : t.world.store.Located P) (fit : fits a) :
      LocatedEnd P fits (.ok a t)
  | stop {x : Interrupt} {t : Session} (store : t.world.store.Located P) (located : x.Located P) :
      LocatedEnd P fits (.error x t)

def Eval.Locates {α : Type} (P : Span → Prop) (fits : α → Prop) (body : Eval α) : Prop :=
  ∀ s, s.world.store.Located P → LocatedEnd P fits (body s)

abbrev Eval.Locating {α : Type} (P : Span → Prop) (body : Eval α) : Prop :=
  body.Locates P fun _ => True

def Evaluator.Locates (P : Span → Prop) (evaluate : Evaluator) : Prop :=
  ∀ node frame, node.Located P → (evaluate node frame).Locating P

namespace Eval.Locates

variable {α β : Type} {P : Span → Prop} {fits : α → Prop} {fits' : β → Prop} {frame : Frame}
  {span : Span}

theorem pure {a : α} (fit : fits a) : (Pure.pure a : Eval α).Locates P fits :=
  fun _ store => .value store fit

theorem throw {x : Interrupt} (located : x.Located P) :
    (MonadExcept.throw x : Eval α).Locates P fits :=
  fun _ store => .stop store located

theorem bind {first : Eval α} {rest : α → Eval β} (begun : first.Locates P fits)
    (goesOn : ∀ a, fits a → (rest a).Locates P fits') : (first >>= rest).Locates P fits' := by
  intro s store
  have begun := begun s store
  simp only [Bind.bind, EStateM.bind]
  generalize first s = outcome at begun ⊢
  cases begun with
  | value store fit => exact goesOn _ fit _ store
  | stop store located => exact .stop store located

theorem andThen {first : Eval α} {rest : α → Eval β} (begun : first.Locating P)
    (goesOn : ∀ a, (rest a).Locates P fits') : (first >>= rest).Locates P fits' :=
  begun.bind fun a _ => goesOn a

theorem map {first : Eval α} {g : α → β} (begun : first.Locating P) :
    (g <$> first).Locating P := by
  rw [map_eq_pure_bind]
  exact begun.andThen fun _ => pure trivial

theorem fail {fault : Fault} (here : P span) : (Eval.fail frame fault span : Eval α).Locates P fits :=
  throw here

theorem get {rest : Session → Eval β} (goesOn : ∀ s, (rest s).Locates P fits') :
    (MonadState.get >>= rest).Locates P fits' :=
  fun s store => goesOn s s store

theorem read {view : Store → α} (fit : ∀ s : Store, s.Located P → fits (view s)) :
    (Eval.read view).Locates P fits :=
  fun s store => .value store (fit s.world.store store)

theorem reading {view : Store → α} : (Eval.read view).Locating P := read fun _ _ => trivial

theorem change {update : Store → α × Store}
    (keeps : ∀ s : Store, s.Located P → (update s).2.Located P) :
    (Eval.change update).Locating P :=
  fun s store => .value (keeps s.world.store store) trivial

theorem ofEffect {effect : Effect α} {trace : List String} {post : Store → α → Prop} (here : P span)
    (sound : ∀ w : World, w.store.Located P →
      (Discipline.located P).SoundEffect w.store post (effect w)) :
    (Eval.ofEffect trace span effect).Locating P := by
  intro s store
  have sound := sound s.world store
  simp only [Eval.ofEffect]
  generalize effect s.world = outcome at sound ⊢
  cases sound with
  | value store _ _ => exact .value store trivial
  | fault store _ _ => exact .stop store here

theorem act {act : Act α} {post : Store → α → Prop} (here : P span)
    (sound : ∀ s : Store, s.Located P → (Discipline.located P).SoundAct s post (act s)) :
    (Eval.ofAct frame span act).Locating P :=
  ofEffect here fun w store => Discipline.ofAct (sound w.store store)

theorem outcome {first : Eval α}
    {φ : EStateM.Result Interrupt Session α → EStateM.Result Interrupt Session β}
    (begun : first.Locates P fits)
    (maps : ∀ r, LocatedEnd P fits r → LocatedEnd P fits' (φ r)) :
    Eval.Locates P fits' fun s => φ (first s) :=
  fun s store => maps _ (begun s store)

theorem nested {body : Eval α} (ran : body.Locates P fits) : (Eval.nested body).Locates P fits := by
  intro s store
  have ran := ran ⟨s.world, s.importStack, s.callDepth + 1⟩ store
  simp only [Eval.nested]
  generalize body _ = outcome at ran ⊢
  cases ran with
  | value store fit => exact .value store fit
  | stop store located => exact .stop store located

theorem within {body : Eval α} {path : Path} (ran : body.Locates P fits) :
    (Eval.within path body).Locates P fits := by
  intro s store
  have ran := ran ⟨s.world, path :: s.importStack, s.callDepth⟩ store
  simp only [Eval.within]
  generalize body _ = outcome at ran ⊢
  cases ran with
  | value store fit => exact .value store fit
  | stop store located => exact .stop store located

theorem mapInterrupt {body : Eval α} {φ : Interrupt → Interrupt} (ran : body.Locates P fits)
    (located : ∀ x : Interrupt, x.Located P → (φ x).Located P) :
    (Eval.mapInterrupt φ body).Locates P fits := by
  intro s store
  have ran := ran s store
  rw [Eval.mapInterrupt_eq]
  generalize body s = outcome at ran ⊢
  cases ran with
  | value store fit => exact .value store fit
  | stop store here => exact .stop store (located _ here)

theorem newRoot {trace : List String} : (Eval.newRoot trace span).Locating P := by
  intro s store
  rw [Eval.newRoot_eq]
  exact .value ((Discipline.located P).root_added store).1 trivial

theorem parse {name text : String} (located : Node.TextLocated P name text) :
    (Eval.parse name text).Locates P fun nodes => ∀ node ∈ nodes, node.Located P := by
  unfold Node.TextLocated at located
  unfold Eval.parse
  cases found : Node.ofText name text with
  | ok nodes =>
    rw [found] at located
    exact pure located
  | error d =>
    rw [found] at located
    exact throw located

variable {body : Eval α} {s t : Session} {d : Diagnostic}

theorem final (locates : body.Locates P fits) (store : s.world.store.Located P) :
    (body.final s).world.store.Located P := by
  unfold Eval.final
  have ended := locates s store
  generalize body s = outcome at ended ⊢
  cases ended with
  | value store _ | stop store _ => exact store

theorem failure (locates : body.Locates P fits) (store : s.world.store.Located P)
    (failed : body s = .error (.failed d) t) : P d.span := by
  have ended := locates s store
  rw [failed] at ended
  cases ended with
  | stop _ located => exact located

end Eval.Locates

/-! ### Rules -/

namespace Evaluator

open Eval (Locating)

variable {P : Span → Prop} {frame : Frame} {span : Span}

theorem access_locates {name : String} (here : P span) : (access frame name span).Locating P :=
  .act here fun _ store => Discipline.readExcept store Store.refuses_lookup fun _ _ => trivial

theorem operate_locates {operator : BinaryOperator} {a b : Value} (here : P span) :
    (Eval.ofAct frame span (Store.binary operator a b)).Locating P :=
  .act here fun _ store => Discipline.binary store trivial trivial

theorem declareIn_locates {scope : Handle} {name : String} {v : Value} {constant : Bool} (here : P span) :
    (Eval.ofAct frame span (Store.declare scope name v constant)).Locating P :=
  .act here fun _ store => Discipline.declare store trivial trivial

theorem assignIn_locates {scope : Handle} {name : String} {v : Value} (here : P span) :
    (Eval.ofAct frame span (Store.assign scope name v)).Locating P :=
  .act here fun _ store => Discipline.assign store trivial trivial

theorem function_locates {name : Option String} {params : List String} {body : List Node}
    (each : ∀ node ∈ body, node.Located P) (here : P span) :
    (function frame name params body span).Locating P := by
  refine Eval.Locates.andThen (.change fun s store => ?_) fun value => ?_
  · exact ((Discipline.located P).function_added (f := ⟨name, params, body, frame.scope⟩) store trivial
      each).1
  cases name with
  | none => exact .pure trivial
  | some name => exact (declareIn_locates here).andThen fun _ => .pure trivial

theorem exitLoop_locates (here : P span) : (exitLoop frame span).Locating P := by
  unfold exitLoop
  split
  · exact .throw trivial
  · exact .fail here

theorem nextTurn_locates (here : P span) : (nextTurn frame span).Locating P := by
  unfold nextTurn
  split
  · exact .throw trivial
  · exact .fail here

theorem bindItem_locates {item : String} {itemSpan : Span} (there : P itemSpan) :
    (bindItem frame item itemSpan).Locating P := by
  refine Eval.Locates.andThen .reading fun present => ?_
  cases present with
  | true => exact assignIn_locates there
  | false => exact declareIn_locates there

theorem bindParameters_locates {scope : Handle} {bindings : List (String × Value)} (here : P span) :
    (bindParameters frame scope span bindings).Locating P := by
  induction bindings with
  | nil => exact .pure trivial
  | cons binding rest ih => exact (declareIn_locates here).andThen fun _ => ih

theorem callBuiltIn_locates {b : BuiltIn} {args : List Value} (here : P span) :
    (callBuiltIn frame b args span).Locating P :=
  .ofEffect here fun _ store =>
    Discipline.call store trivial (Discipline.within_anything _) fun _ _ => trivial

theorem bindExports_locates {exports : List Export} (here : P span) :
    (bindExports frame span exports).Locating P := by
  induction exports with
  | nil => exact .pure trivial
  | cons e rest ih => exact (declareIn_locates here).andThen fun _ => ih

theorem bindModule_locates {binding name : String} {exports : List Export} (here : P span) :
    (bindModule frame binding name exports span).Locating P := by
  refine Eval.Locates.andThen (.change fun s store => ?_) fun _ => declareIn_locates here
  exact ((Discipline.located P).module_added store fun _ _ => trivial).1

theorem bindImport_locates {binding : Option ImportAlias} {name : String} {exports : List Export}
    (here : P span) : (bindImport frame binding name exports span).Locating P := by
  cases binding with
  | none => exact (bindModule_locates here).andThen fun _ => .pure trivial
  | some chosen =>
    cases chosen with
    | wildcard => exact (bindExports_locates here).andThen fun _ => .pure trivial
    | name chosen => exact (bindModule_locates here).andThen fun _ => .pure trivial

namespace Locates

variable {evaluate : Evaluator} (locates : evaluate.Locates P)

include locates

theorem values {nodes : List Node} {found : Array Value} (each : ∀ node ∈ nodes, node.Located P) :
    (evaluate.values frame nodes found).Locating P := by
  induction nodes generalizing found with
  | nil => exact .pure trivial
  | cons node rest ih =>
    obtain ⟨first, others⟩ := List.forall_mem_cons.mp each
    exact (locates node frame first).andThen fun _ => ih others

theorem condition {node : Node} (located : node.Located P) :
    (evaluate.condition frame node).Locating P :=
  (locates node frame located).andThen fun _ => .act located.span fun _ store =>
    Discipline.readExcept (P := Discipline.anything) store Store.refuses_truth fun _ _ => trivial

theorem binary {left right : Node} {operator : BinaryOperator} (first : left.Located P)
    (second : right.Located P) (here : P span) :
    (evaluate.binary frame left operator right span).Locating P :=
  (locates left frame first).andThen fun _ => (locates right frame second).andThen fun _ =>
    operate_locates here

theorem unary {operand : Node} {operator : UnaryOperator} (located : operand.Located P) (here : P span) :
    (evaluate.unary frame operator operand span).Locating P :=
  (locates operand frame located).andThen fun _ => .act here fun _ store => Discipline.unary store

theorem declare {name : String} {constant : Bool} {value : Node} (located : value.Located P)
    (here : P span) : (evaluate.declare frame name constant value span).Locating P :=
  (locates value frame located).andThen fun _ => (declareIn_locates here).andThen fun _ => .pure trivial

theorem assign {name : String} {compound : Option BinaryOperator} {value : Node}
    (located : value.Located P) (here : P span) :
    (evaluate.assign frame name compound value span).Locating P := by
  -- what is left to do once the new value is known
  have store (v : Value) : (do
      Eval.ofAct frame span (Store.assign frame.scope name v)
      return v : Eval Value).Locating P :=
    (assignIn_locates here).andThen fun _ => .pure trivial
  refine (locates value frame located).andThen fun v => ?_
  cases compound with
  | none => exact store v
  | some operator =>
    exact (access_locates here).andThen fun current => (operate_locates here).andThen store

theorem list {items : List Node} (each : ∀ node ∈ items, node.Located P) :
    (evaluate.list frame items).Locating P :=
  (locates.values each).andThen fun _ => .change fun _ store => store

theorem entries {nodes : List (Node × Node)} {found : Entries}
    (each : ∀ entry ∈ nodes, entry.1.Located P ∧ entry.2.Located P) :
    (evaluate.entries frame nodes found).Locating P := by
  induction nodes generalizing found with
  | nil => exact .pure trivial
  | cons node rest ih =>
    obtain ⟨⟨onKey, onValue⟩, others⟩ := List.forall_mem_cons.mp each
    refine (locates node.1 frame onKey).andThen fun key => ?_
    refine (locates node.2 frame onValue).andThen fun value => ?_
    exact Eval.Locates.andThen .reading fun _ => ih others

theorem dictionary {nodes : List (Node × Node)}
    (each : ∀ entry ∈ nodes, entry.1.Located P ∧ entry.2.Located P) :
    (evaluate.dictionary frame nodes).Locating P :=
  (locates.entries each).andThen fun _ => .change fun _ store => store

theorem getIndex {base index : Node} (first : base.Located P) (second : index.Located P) (here : P span) :
    (evaluate.getIndex frame base index span).Locating P :=
  (locates base frame first).andThen fun _ => (locates index frame second).andThen fun _ =>
    .act here fun _ store => Discipline.getItem store trivial

theorem setIndex {base index value : Node} (first : base.Located P) (second : index.Located P)
    (third : value.Located P) (here : P span) :
    (evaluate.setIndex frame base index value span).Locating P := by
  refine (locates base frame first).andThen fun _ => (locates index frame second).andThen fun _ =>
    (locates value frame third).andThen fun _ => Eval.Locates.andThen ?_ fun _ => .pure trivial
  exact .act here fun _ store => Discipline.setItem store trivial trivial trivial trivial fun _ _ => trivial

theorem member {base : Node} {name : String} (located : base.Located P) (here : P span) :
    (evaluate.member frame base name span).Locating P :=
  (locates base frame located).andThen fun _ => .act here fun _ store =>
    Discipline.member store trivial fun _ => trivial

theorem block {nodes : List Node} (each : ∀ node ∈ nodes, node.Located P) :
    (evaluate.block frame nodes).Locating P := by
  induction nodes with
  | nil => exact .pure trivial
  | cons node rest ih =>
    obtain ⟨first, others⟩ := List.forall_mem_cons.mp each
    exact (locates node frame first).andThen fun _ => ih others

theorem ifElse {branches : List (Node × List Node)} {otherwise : Option (List Node)}
    (each : ∀ branch ∈ branches, branch.1.Located P ∧ ∀ node ∈ branch.2, node.Located P)
    (last : ∀ node ∈ otherwise.getD [], node.Located P) :
    (evaluate.ifElse frame branches otherwise).Locating P := by
  induction branches with
  | nil => exact (locates.block last).andThen fun _ => .pure trivial
  | cons branch rest ih =>
    obtain ⟨⟨onTest, onBody⟩, others⟩ := List.forall_mem_cons.mp each
    refine (locates.condition onTest).andThen fun holds => ?_
    cases holds with
    | true => exact (locates.block onBody).andThen fun _ => .pure trivial
    | false => exact ih others

theorem turn {body : List Node} (each : ∀ node ∈ body, node.Located P) :
    (evaluate.turn frame body).Locating P := by
  rw [Evaluator.turn_eq]
  refine Eval.Locates.andThen (.change fun _ store => store) fun scope =>
    (locates.block each).outcome fun r ended => ?_
  cases ended with
  | value store _ => exact .value store trivial
  | @stop x t store located =>
    cases x with
    | exitLoop _ | nextTurn _ => exact .value store trivial
    | failed _ | exitFunction _ | exhausted => exact .stop store located

theorem whileLoop {test : Node} {body : List Node} (located : test.Located P)
    (each : ∀ node ∈ body, node.Located P) (fuel : Nat) :
    (evaluate.whileLoop frame test body fuel).Locating P := by
  induction fuel with
  | zero => exact .throw trivial
  | succ fuel ih =>
    refine (locates.condition located).andThen fun holds => ?_
    cases holds with
    | false => exact .pure trivial
    | true =>
      refine (locates.turn each).andThen fun goesOn => ?_
      cases goesOn with
      | false => exact .pure trivial
      | true => exact ih

theorem forItems {item : String} {itemSpan : Span} {list : Handle} {body : List Node}
    (there : P itemSpan) (each : ∀ node ∈ body, node.Located P) (fuel index : Nat) :
    (evaluate.forItems frame item itemSpan list body fuel index).Locating P := by
  induction fuel generalizing index with
  | zero => exact .throw trivial
  | succ fuel ih =>
    refine Eval.Locates.andThen .reading fun found => ?_
    cases found with
    | none => exact .pure trivial
    | some value =>
      refine (assignIn_locates there).andThen fun _ => (locates.turn each).andThen fun goesOn => ?_
      cases goesOn with
      | false => exact .pure trivial
      | true => exact ih (index + 1)

theorem forLoop {item : String} {itemSpan : Span} {iterable : Node} {body : List Node} {fuel : Nat}
    (there : P itemSpan) (located : iterable.Located P) (each : ∀ node ∈ body, node.Located P) :
    (evaluate.forLoop frame fuel item itemSpan iterable body).Locating P := by
  refine (locates iterable frame located).andThen fun value => ?_
  cases value with
  | list list => exact (bindItem_locates there).andThen fun _ => locates.forItems there each fuel 0
  | number _ | string _ | boolean _ | null | dictionary _ | function _ | builtIn _ | module _ =>
    exact .fail located.span

theorem exitFunction {value : Option Node} (each : ∀ node ∈ value, node.Located P) (here : P span) :
    (evaluate.exitFunction frame value span).Locating P := by
  cases inside : frame.inFunction with
  | false =>
    simp only [Evaluator.exitFunction, inside]
    exact .fail here
  | true =>
    simp only [Evaluator.exitFunction, inside]
    cases value with
    | none => exact .throw trivial
    | some node =>
      apply Eval.Locates.andThen (locates node frame (each node rfl))
      exact fun _ => .throw trivial

theorem bound {node : Node} (located : node.Located P) : (evaluate.bound frame node).Locating P := by
  refine (locates node frame located).andThen fun value => ?_
  cases value with
  | number n =>
    cases n with
    | int n => exact .pure trivial
    | float _ => exact .fail located.span
  | string _ | boolean _ | null | list _ | dictionary _ | function _ | builtIn _ | module _ =>
    exact .fail located.span

theorem range {start stop step : Node} (first : start.Located P) (second : stop.Located P)
    (third : step.Located P) (here : P span) :
    (evaluate.range frame start stop step span).Locating P := by
  refine (locates.bound first).andThen fun start => (locates.bound second).andThen fun stop =>
    (locates.bound third).andThen fun step => ?_
  by_cases zero : step = 0
  · simp only [zero, ↓reduceIte]
    exact .fail here
  · simp only [zero, ↓reduceIte]
    exact .change fun _ store => store

theorem bodyValue {body : List Node} (each : ∀ node ∈ body, node.Located P) :
    (evaluate.bodyValue frame body).Locating P := by
  rw [show evaluate.bodyValue frame body = fun s => bodyEnd (evaluate.block frame body s) from
    funext (bodyValue_eq _ _ _)]
  refine (locates.block each).outcome fun r ended => ?_
  cases ended with
  | value store _ => exact .value store trivial
  | @stop x t store located =>
    cases x with
    | exitFunction _ => exact .value store trivial
    | failed _ | exitLoop _ | nextTurn _ | exhausted => exact .stop store located

theorem callFunction {f : Function} {args : List Value} {limit : Nat}
    (each : ∀ node ∈ f.body, node.Located P) (here : P span) :
    (evaluate.callFunction frame limit f args span).Locating P := by
  unfold Evaluator.callFunction
  by_cases count : args.length = f.params.length
  · simp only [ne_eq, count, not_true_eq_false, ↓reduceIte]
    refine Eval.Locates.get fun s => ?_
    by_cases full : limit ≤ s.callDepth
    · simp only [full, ↓reduceIte]
      exact .fail here
    · simp only [full, ↓reduceIte]
      refine Eval.Locates.andThen (.change fun _ store => store) fun scope => ?_
      exact (bindParameters_locates here).andThen fun _ => (locates.bodyValue each).nested
  · simp only [ne_eq, count, not_false_eq_true, ↓reduceIte]
    exact .fail here

theorem call {callee : Node} {args : List Node} {limit : Nat} (located : callee.Located P)
    (each : ∀ node ∈ args, node.Located P) (here : P span) :
    (evaluate.call frame limit callee args span).Locating P := by
  refine (locates callee frame located).andThen fun value => (locates.values each).andThen fun found => ?_
  rw [callValue_eq]
  cases value with
  | function h =>
    exact Eval.Locates.bind (.read fun s store => store.body h) fun f each => locates.callFunction each here
  | builtIn h =>
    exact Eval.Locates.andThen .reading fun b =>
      callBuiltIn_locates here
  | number _ | string _ | boolean _ | null | list _ | dictionary _ | module _ => exact .fail here

end Locates

/-! ### Modules and programs -/

section Programs

variable {host : Host} {fuel : Nat} (locates : Locates P (evaluate host fuel))

include locates

theorem Locates.statements {nodes : List Node} (each : ∀ node ∈ nodes, node.Located P)
    (outside : frame.inFunction = false) (apart : frame.inLoop = false) :
    (statements (evaluate host fuel) frame nodes).Locating P := by
  -- no signal gets this far, so none is turned into a fault
  rw [statements_outside host fuel nodes outside apart]
  exact .map (locates.values each)

theorem Locates.runModule {name text : String} {path canonical : Path}
    (located : Node.TextLocated P path.text text) :
    (runModule (evaluate host fuel) frame name path canonical text span).Locating P := by
  refine Eval.Locates.mapInterrupt ?_ fun x here => here.withNote _
  refine (Eval.Locates.parse located).bind fun nodes each => Eval.Locates.newRoot.andThen fun scope => ?_
  exact (locates.statements each rfl rfl).within.andThen fun _ => .reading

theorem Locates.loadExports {name : String} {nameSpan : Span} (files : host.FilesLocated P)
    (there : P nameSpan) (here : P span) :
    (loadExports (evaluate host fuel) frame host name nameSpan span).Locating P := by
  refine Eval.Locates.andThen (Eval.Locates.get fun s => .pure trivial) fun directory => ?_
  cases found : host.resolve? directory name with
  | none => exact .fail there
  | some source =>
    cases source with
    | native m =>
      have known : m ∈ host.natives := Host.native_mem_of_resolve? found
      have admits : (Discipline.located P).Admits host.natives :=
        fun _ _ _ _ _ _ _ => Discipline.within_anything _
      exact .act here fun _ store => Discipline.exports store admits known
    | file path =>
      refine Eval.Locates.get fun s => ?_
      cases circular : s.importStack.any (·.same (host.files.canonical path)) with
      | true =>
        simp only [circular, ↓reduceIte]
        exact .fail here
      | false =>
        simp only [circular, Bool.false_eq_true, ↓reduceIte]
        cases contains : host.files.read path with
        | error reason => exact .fail here
        | ok text => exact locates.runModule (files path text contains)

theorem Locates.importModule {module : Node} {binding : Option ImportAlias} (files : host.FilesLocated P)
    (located : module.Located P) (here : P span) :
    (importModule (evaluate host fuel) frame host module binding span).Locating P := by
  rw [importModule_eq]
  refine (locates module frame located).andThen fun value => ?_
  cases value with
  | string name =>
    exact (locates.loadExports files located.span here).andThen fun _ => bindImport_locates here
  | number _ | boolean _ | null | list _ | dictionary _ | function _ | builtIn _ | module _ =>
    exact .fail located.span

/-- One more step of the evaluator. -/
theorem Locates.step (files : host.FilesLocated P) (node : Node) (located : node.Located P) :
    (step host fuel (evaluate host fuel) node frame).Locating P := by
  have here := located.span
  have child {inner : Node} (inside : inner ∈ node.children) : inner.Located P := located.child inside
  cases node with
  | number _ _ | string _ _ => exact .pure trivial
  | binary _ _ _ _ => exact locates.binary (child (.head _)) (child (.tail _ (.head _))) here
  | unary _ _ _ => exact locates.unary (child (.head _)) here
  | access _ _ => exact access_locates here
  | declare _ _ _ _ => exact locates.declare (child (.head _)) here
  | assign _ _ _ _ => exact locates.assign (child (.head _)) here
  | list _ _ => exact locates.list fun _ => child
  | dictionary entries _ =>
    refine locates.dictionary fun entry inside => ?_
    have part {inner : Node} (within : inner ∈ [entry.1, entry.2]) : inner.Located P :=
      child (List.mem_flatMap.mpr ⟨entry, inside, within⟩)
    exact ⟨part (.head _), part (.tail _ (.head _))⟩
  | getIndex _ _ _ =>
    exact locates.getIndex (child (.head _)) (child (.tail _ (.head _))) here
  | setIndex _ _ _ _ =>
    exact locates.setIndex (child (.head _)) (child (.tail _ (.head _)))
      (child (.tail _ (.tail _ (.head _)))) here
  | member _ _ _ => exact locates.member (child (.head _)) here
  | function _ _ _ _ => exact function_locates (fun _ => child) here
  | call _ _ _ => exact locates.call (child (.head _)) (fun _ inside => child (.tail _ inside)) here
  | ifElse branches otherwise _ =>
    refine locates.ifElse (fun branch inside => ?_) fun _ inside => child (List.mem_append_right _ inside)
    have part {inner : Node} (within : inner ∈ branch.1 :: branch.2) : inner.Located P :=
      child (List.mem_append_left _ (List.mem_flatMap.mpr ⟨branch, inside, within⟩))
    exact ⟨part (.head _), fun _ within => part (.tail _ within)⟩
  | whileLoop _ _ _ =>
    exact locates.whileLoop (child (.head _)) (fun _ inside => child (.tail _ inside)) fuel
  | forLoop _ _ _ _ _ =>
    exact locates.forLoop (located.part (.head _)) (child (.head _))
      fun _ inside => child (.tail _ inside)
  | exitFunction _ _ =>
    exact locates.exitFunction (fun _ inside => child (Option.mem_toList.mpr inside)) here
  | exitLoop _ => exact exitLoop_locates here
  | nextTurn _ => exact nextTurn_locates here
  | importModule _ _ _ => exact locates.importModule files (child (.head _)) here
  | range _ _ _ _ =>
    exact locates.range (child (.head _)) (child (.tail _ (.head _)))
      (child (.tail _ (.tail _ (.head _)))) here

end Programs

theorem evaluate_locates {host : Host} (files : host.FilesLocated P) (fuel : Nat) :
    Locates P (evaluate host fuel) := by
  induction fuel with
  | zero => exact fun _ _ _ => .throw trivial
  | succ fuel ih => exact fun node _ located => ih.step files node located

end Evaluator

namespace Eval

variable {P : Span → Prop} {host : Host}

theorem newContext_locates (name : String) : (newContext name).Locating P :=
  Eval.Locates.newRoot.andThen fun _ => .pure trivial

theorem interpret_locates (files : host.FilesLocated P) {nodes : List Node}
    (each : ∀ node ∈ nodes, node.Located P) (fuel : Nat) (context : Context) :
    (interpret host fuel nodes context).Locating P :=
  (Evaluator.evaluate_locates files fuel).statements each rfl rfl

theorem runText_locates (files : host.FilesLocated P) {name text : String}
    (located : Node.TextLocated P name text) (fuel : Nat) : (runText host fuel name text).Locating P :=
  (Eval.Locates.parse located).bind fun _ each => (newContext_locates name).andThen fun context =>
    interpret_locates files each fuel context

theorem runFile_locates (files : host.FilesLocated P) {nodes : List Node}
    (each : ∀ node ∈ nodes, node.Located P) (fuel : Nat) (path : Path) :
    (runFile host fuel path nodes).Locating P :=
  (newContext_locates path.text).andThen fun context => (interpret_locates files each fuel context).within

end Eval

end BasicScript
