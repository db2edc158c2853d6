import BasicScript.Proofs.Evaluate.Import
import BasicScript.Proofs.Store.Likeness

/-! Evaluation does not see where in a text its nodes stand. Nodes that have been moved are
evaluated alike, in sessions whose functions have bodies that have been moved: to the same value or
to the same fault, trace and notes, and to sessions that are alike again. -/

set_option autoImplicit false

namespace BasicScript

structure Session.Alike (s t : Session) : Prop where
  world : s.world.Alike t.world
  importStack : s.importStack = t.importStack
  callDepth : s.callDepth = t.callDepth

/-- Interrupts that differ only in their places. -/
inductive Interrupt.Alike : Interrupt → Interrupt → Prop
  | failed (fault : Fault) (trace notes : List String) (s t : Span) :
      Alike (.failed ⟨fault, s, trace, notes⟩) (.failed ⟨fault, t, trace, notes⟩)
  | exitFunction (v : Value) : Alike (.exitFunction v) (.exitFunction v)
  | exitLoop (s t : Span) : Alike (.exitLoop s) (.exitLoop t)
  | nextTurn (s t : Span) : Alike (.nextTurn s) (.nextTurn t)
  | exhausted : Alike .exhausted .exhausted

namespace Session.Alike

variable {s t u : Session}

theorem refl (s : Session) : s.Alike s := ⟨⟨.refl _, rfl⟩, rfl, rfl⟩

theorem symm (alike : s.Alike t) : t.Alike s :=
  ⟨⟨alike.world.store.symm, alike.world.console.symm⟩, alike.importStack.symm, alike.callDepth.symm⟩

theorem trans (first : s.Alike t) (second : t.Alike u) : s.Alike u :=
  ⟨⟨first.world.store.trans second.world.store, first.world.console.trans second.world.console⟩,
    first.importStack.trans second.importStack, first.callDepth.trans second.callDepth⟩

end Session.Alike

namespace Interrupt.Alike

variable {x y z : Interrupt}

theorem refl (x : Interrupt) : x.Alike x := by
  cases x <;> constructor

theorem symm (alike : x.Alike y) : y.Alike x := by
  cases alike <;> constructor

theorem trans (first : x.Alike y) (second : y.Alike z) : x.Alike z := by
  cases first <;> cases second <;> constructor

theorem escaped (alike : x.Alike y) (frame : Frame) : (x.escaped frame).Alike (y.escaped frame) := by
  cases alike <;> constructor

theorem withNote (alike : x.Alike y) (note : String) : (x.withNote note).Alike (y.withNote note) := by
  cases alike <;> constructor

end Interrupt.Alike

namespace Eval

variable {α : Type}

abbrev Same (m n : Eval α) : Prop := BasicScript.Same Session.Alike Interrupt.Alike m n

abbrev SameEnd (p q : EStateM.Result Interrupt Session α) : Prop :=
  BasicScript.SameEnd Session.Alike Interrupt.Alike p q

end Eval

namespace Same

variable {α β : Type} {m n k : Eval α} {f : Frame} {s t : Span}

theorem symm (same : Eval.Same m n) : Eval.Same n m := fun _ _ alike =>
  (same alike.symm).symm (fun _ _ => Session.Alike.symm) fun _ _ => Interrupt.Alike.symm

theorem trans (first : Eval.Same m n) (second : Eval.Same n k) : Eval.Same m k := fun _ _ alike =>
  (first alike).trans (fun _ _ _ before after => before.trans after)
    (fun _ _ _ before after => before.trans after) (second (.refl _))

theorem fail (fault : Fault) : Eval.Same (Eval.fail f fault s : Eval α) (Eval.fail f fault t) :=
  .throw (.failed fault f.trace [] s t)

theorem fail_bind (fault : Fault) {k l : β → Eval α} :
    Eval.Same (Eval.fail f fault s >>= k) (Eval.fail f fault t >>= l) :=
  fun _ _ => .stop (.failed fault f.trace [] s t)

theorem guard {p : Prop} {_ : Decidable p} (fault : Fault) {rest rest' : Unit → Eval α}
    (goesOn : Eval.Same (rest ()) (rest' ())) :
    Eval.Same (if p then Eval.fail f fault s >>= rest else rest ())
      (if p then Eval.fail f fault t >>= rest' else rest' ()) := by
  split
  · exact fail_bind fault
  · exact goesOn

theorem ofEffect {effect : Effect α} (trace : List String) (blind : effect.Blind) :
    Eval.Same (Eval.ofEffect trace s effect) (Eval.ofEffect trace t effect) := by
  intro u v alike
  have ends := blind alike.world
  unfold Eval.ofEffect
  dsimp only
  generalize effect u.world = one, effect v.world = other at ends ⊢
  cases ends with
  | value same => exact .value ⟨same, alike.importStack, alike.callDepth⟩
  | @stop x _ _ _ both same =>
    cases both
    exact .stop (.failed x trace [] s t) ⟨same, alike.importStack, alike.callDepth⟩

theorem act {act : Act α} (blind : act.Blind) :
    Eval.Same (Eval.ofAct f s act) (Eval.ofAct f t act) := ofEffect f.trace (.ofAct blind)

theorem read {view : Store → α} (same : ∀ s t, s.Alike t → view s = view t) :
    Eval.Same (Eval.read view) (Eval.read view) := by
  intro u v alike
  unfold Eval.read
  rw [same _ _ alike.world.store]
  exact .value alike

theorem change {update update' : Store → α × Store} (same : ∀ s t, s.Alike t →
    (update s).1 = (update' t).1 ∧ (update s).2.Alike (update' t).2) :
    Eval.Same (Eval.change update) (Eval.change update') := by
  intro u v alike
  obtain ⟨value, store⟩ := same _ _ alike.world.store
  unfold Eval.change
  dsimp only
  rw [value]
  exact .value ⟨⟨store, alike.world.console⟩, alike.importStack, alike.callDepth⟩

theorem nested (same : Eval.Same m n) : Eval.Same (Eval.nested m) (Eval.nested n) := by
  intro u v alike
  have inner : Session.Alike ⟨u.world, u.importStack, u.callDepth + 1⟩
      ⟨v.world, v.importStack, v.callDepth + 1⟩ :=
    ⟨alike.world, alike.importStack, congrArg (· + 1) alike.callDepth⟩
  have ends := same inner
  unfold Eval.nested
  dsimp only
  generalize m _ = one, n _ = other at ends ⊢
  cases ends with
  | value after =>
    exact .value ⟨after.world, after.importStack, congrArg (· - 1) after.callDepth⟩
  | stop both after =>
    exact .stop both ⟨after.world, after.importStack, congrArg (· - 1) after.callDepth⟩

theorem within (path : Path) (same : Eval.Same m n) :
    Eval.Same (Eval.within path m) (Eval.within path n) := by
  intro u v alike
  have inner : Session.Alike ⟨u.world, path :: u.importStack, u.callDepth⟩
      ⟨v.world, path :: v.importStack, v.callDepth⟩ :=
    ⟨alike.world, congrArg (path :: ·) alike.importStack, alike.callDepth⟩
  have ends := same inner
  unfold Eval.within
  dsimp only
  generalize m _ = one, n _ = other at ends ⊢
  cases ends with
  | value after =>
    exact .value ⟨after.world, congrArg List.tail after.importStack, after.callDepth⟩
  | stop both after =>
    exact .stop both ⟨after.world, congrArg List.tail after.importStack, after.callDepth⟩

theorem mapInterrupt {φ : Interrupt → Interrupt} (same : Eval.Same m n)
    (keeps : ∀ x y, x.Alike y → (φ x).Alike (φ y)) :
    Eval.Same (Eval.mapInterrupt φ m) (Eval.mapInterrupt φ n) := by
  rw [funext (Eval.mapInterrupt_eq φ m), funext (Eval.mapInterrupt_eq φ n)]
  refine same.map fun p q ends => ?_
  cases ends with
  | value alike => exact .value alike
  | stop both alike => exact .stop (keeps _ _ both) alike

theorem newRoot (trace : List String) : Eval.Same (Eval.newRoot trace s) (Eval.newRoot trace t) := by
  intro u v alike
  rw [Eval.newRoot_eq, Eval.newRoot_eq]
  have scopes := alike.world.store.scopes
  have builtIns := alike.world.store.builtIns
  have store : u.world.store.addRoot.2.Alike v.world.store.addRoot.2 :=
    { alike.world.store with
      scopes := by simp only [Store.addRoot, Store.withRoot, scopes, builtIns]
      builtIns := by simp only [Store.addRoot, Store.withRoot, builtIns] }
  have first : u.world.store.addRoot.1 = v.world.store.addRoot.1 := congrArg Array.size scopes
  rw [first]
  exact .value ⟨⟨store, alike.world.console⟩, alike.importStack, alike.callDepth⟩

end Same

/-- The evaluator does the same with a node that has been moved. -/
def Evaluator.Blind (evaluate : Evaluator) : Prop :=
  ∀ node frame, Eval.Same (evaluate node frame) (evaluate (node.relocate .forget) frame)

namespace Evaluator.Blind

open Node

variable {E : Evaluator} (blind : E.Blind) {f : Frame} {s t : Span}

section Expressions

include blind

theorem values (nodes : List Node) (found : Array Value) :
    Eval.Same (E.values f nodes found) (E.values f (relocateAll .forget nodes) found) := by
  induction nodes generalizing found with
  | nil => exact .pure found
  | cons node rest ih => exact .bind (blind node f) fun value => ih _

theorem condition (node : Node) :
    Eval.Same (E.condition f node) (E.condition f (node.relocate .forget)) :=
  .bind (blind node f) fun _ => .act (.readExcept fun _ _ alike => alike.truth _)

theorem binary (left : Node) (operator : BinaryOperator) (right : Node) :
    Eval.Same (E.binary f left operator right s)
      (E.binary f (left.relocate .forget) operator (right.relocate .forget) t) :=
  .bind (blind left f) fun a => .bind (blind right f) fun b => .act (.binary operator a b)

theorem unary (operator : UnaryOperator) (operand : Node) :
    Eval.Same (E.unary f operator operand s) (E.unary f operator (operand.relocate .forget) t) :=
  .bind (blind operand f) fun _ => .act (.readExcept fun _ _ alike => alike.unary operator _)

omit blind in
theorem access (name : String) : Eval.Same (Evaluator.access f name s) (Evaluator.access f name t) :=
  .act (.readExcept fun _ _ alike => by rw [alike.lookup])

theorem declare (name : String) (constant : Bool) (value : Node) :
    Eval.Same (E.declare f name constant value s)
      (E.declare f name constant (value.relocate .forget) t) :=
  .bind (blind value f) fun v => .bind (.act (.declare f.scope name v constant)) fun _ => .pure v

theorem assign (name : String) (compound : Option BinaryOperator) (value : Node) :
    Eval.Same (E.assign f name compound value s)
      (E.assign f name compound (value.relocate .forget) t) := by
  refine .bind (blind value f) fun v => ?_
  have store (v : Value) : Eval.Same
      (do Eval.ofAct f s (Store.assign f.scope name v); return v : Eval Value)
      (do Eval.ofAct f t (Store.assign f.scope name v); return v : Eval Value) :=
    .bind (.act (.assign f.scope name v)) fun _ => .pure v
  cases compound with
  | none => exact store v
  | some operator =>
    exact .bind (access name) fun current => .bind (.act (.binary operator current v)) store

theorem list (items : List Node) :
    Eval.Same (E.list f items) (E.list f (relocateAll .forget items)) :=
  .bind (blind.values items #[]) fun found => .change fun _ _ alike => alike.addList found

theorem entries (nodes : List (Node × Node)) (found : Entries) :
    Eval.Same (E.entries f nodes found) (E.entries f (relocateEntries .forget nodes) found) := by
  induction nodes generalizing found with
  | nil => exact .pure found
  | cons node rest ih =>
    refine .bind (blind node.1 f) fun key => .bind (blind node.2 f) fun value => ?_
    exact .bind (.read fun _ _ alike => alike.insert found key value) fun found => ih found

theorem dictionary (nodes : List (Node × Node)) :
    Eval.Same (E.dictionary f nodes) (E.dictionary f (relocateEntries .forget nodes)) :=
  .bind (blind.entries nodes #[]) fun found => .change fun _ _ alike => alike.addDictionary found

theorem getIndex (base index : Node) :
    Eval.Same (E.getIndex f base index s)
      (E.getIndex f (base.relocate .forget) (index.relocate .forget) t) :=
  .bind (blind base f) fun b => .bind (blind index f) fun i =>
    .act (.readExcept fun _ _ alike => alike.getItem b i)

theorem setIndex (base index value : Node) :
    Eval.Same (E.setIndex f base index value s)
      (E.setIndex f (base.relocate .forget) (index.relocate .forget) (value.relocate .forget) t) :=
  .bind (blind base f) fun b => .bind (blind index f) fun i => .bind (blind value f) fun v =>
    .bind (.act (.setItem b i v)) fun _ => .pure v

theorem member (base : Node) (name : String) :
    Eval.Same (E.member f base name s) (E.member f (base.relocate .forget) name t) :=
  .bind (blind base f) fun b => .act (.member b name)

end Expressions

theorem function (name : Option String) (params : List String) (body : List Node) :
    Eval.Same (Evaluator.function f name params body s)
      (Evaluator.function f name params (relocateAll .forget body) t) := by
  have forgotten : Function.forget ⟨name, params, body, f.scope⟩ =
      Function.forget ⟨name, params, relocateAll .forget body, f.scope⟩ := by
    simp only [Function.forget, relocateAll_forget]
  refine .bind (.change fun _ _ alike => alike.addFunction forgotten) fun value => ?_
  cases name with
  | none => exact .pure value
  | some name => exact .bind (.act (.declare f.scope name value true)) fun _ => .pure Value.null

section Loops

include blind

theorem block (nodes : List Node) :
    Eval.Same (E.block f nodes) (E.block f (relocateAll .forget nodes)) := by
  induction nodes with
  | nil => exact .pure ()
  | cons node rest ih => exact .bind (blind node f) fun _ => ih

theorem ifElse (branches : List (Node × List Node)) (otherwise : Option (List Node)) :
    Eval.Same (E.ifElse f branches otherwise)
      (E.ifElse f (relocateBranches .forget branches) (relocateBlock .forget otherwise)) := by
  induction branches with
  | nil =>
    cases otherwise with
    | none => exact .bind (blind.block []) fun _ => .pure Value.null
    | some body => exact .bind (blind.block body) fun _ => .pure Value.null
  | cons branch rest ih =>
    refine .bind (blind.condition branch.1) fun holds => ?_
    cases holds with
    | true => exact .bind (blind.block branch.2) fun _ => .pure Value.null
    | false => exact ih

theorem turn (body : List Node) :
    Eval.Same (E.turn f body) (E.turn f (relocateAll .forget body)) := by
  rw [Evaluator.turn_eq, Evaluator.turn_eq]
  refine .bind (.change fun _ _ alike => alike.addScope _) fun scope => ?_
  refine .map (blind.block body) fun p q ends => ?_
  cases ends with
  | value alike => exact .value alike
  | stop both alike =>
    cases both with
    | nextTurn _ _ | exitLoop _ _ => exact .value alike
    | failed fault trace notes s t => exact .stop (.failed fault trace notes s t) alike
    | exitFunction v => exact .stop (.exitFunction v) alike
    | exhausted => exact .stop .exhausted alike

theorem whileLoop (test : Node) (body : List Node) (fuel : Nat) :
    Eval.Same (E.whileLoop f test body fuel)
      (E.whileLoop f (test.relocate .forget) (relocateAll .forget body) fuel) := by
  induction fuel with
  | zero => exact .throw .exhausted
  | succ fuel ih =>
    refine .bind (blind.condition test) fun holds => ?_
    cases holds with
    | false => exact .pure Value.null
    | true =>
      refine .bind (blind.turn body) fun goesOn => ?_
      cases goesOn with
      | true => exact ih
      | false => exact .pure Value.null

omit blind in
theorem bindItem (item : String) :
    Eval.Same (Evaluator.bindItem f item s) (Evaluator.bindItem f item t) := by
  refine .bind (.read fun _ _ alike => alike.declares f.scope item) fun declared => ?_
  cases declared with
  | true => exact .act (.assign f.scope item .null)
  | false => exact .act (.declare f.scope item .null false)

theorem forItems (item : String) (list : Handle) (body : List Node) (fuel index : Nat) :
    Eval.Same (E.forItems f item s list body fuel index)
      (E.forItems f item t list (relocateAll .forget body) fuel index) := by
  induction fuel generalizing index with
  | zero => exact .throw .exhausted
  | succ fuel ih =>
    refine .bind (.read fun _ _ alike => by rw [alike.items]) fun found => ?_
    cases found with
    | none => exact .pure Value.null
    | some value =>
      refine .bind (.act (.assign f.scope item value)) fun _ => ?_
      refine .bind (blind.turn body) fun goesOn => ?_
      cases goesOn with
      | true => exact ih (index + 1)
      | false => exact .pure Value.null

theorem forLoop (fuel : Nat) (item : String) (iterable : Node) (body : List Node) :
    Eval.Same (E.forLoop f fuel item s iterable body)
      (E.forLoop f fuel item t (iterable.relocate .forget) (relocateAll .forget body)) := by
  refine .bind (blind iterable f) fun value => ?_
  cases value with
  | list list => exact .bind (bindItem item) fun _ => blind.forItems item list body fuel 0
  | _ => exact .fail .notIterable

theorem exitFunction (value : Option Node) :
    Eval.Same (E.exitFunction f value s) (E.exitFunction f (value.map (relocate .forget)) t) := by
  have leave (v : Value) :
      Eval.Same (throw (.exitFunction v) : Eval Value) (throw (.exitFunction v)) :=
    .throw (.exitFunction v)
  unfold Evaluator.exitFunction
  refine .guard .returnOutsideFunction ?_
  cases value with
  | none => exact leave .null
  | some node => exact .bind (blind node f) leave

omit blind in
theorem exitLoop : Eval.Same (Evaluator.exitLoop f s) (Evaluator.exitLoop f t) := by
  unfold Evaluator.exitLoop
  cases f.inLoop with
  | true => exact .throw (.exitLoop s t)
  | false => exact .fail .breakOutsideLoop

omit blind in
theorem nextTurn : Eval.Same (Evaluator.nextTurn f s) (Evaluator.nextTurn f t) := by
  unfold Evaluator.nextTurn
  cases f.inLoop with
  | true => exact .throw (.nextTurn s t)
  | false => exact .fail .continueOutsideLoop

theorem bound (node : Node) :
    Eval.Same (E.bound f node) (E.bound f (node.relocate .forget)) := by
  refine .bind (blind node f) fun value => ?_
  cases value with
  | number n =>
    cases n with
    | int n => exact .pure n
    | float _ => exact .fail _
  | _ => exact .fail _

theorem range (start stop step : Node) :
    Eval.Same (E.range f start stop step s)
      (E.range f (start.relocate .forget) (stop.relocate .forget) (step.relocate .forget) t) := by
  refine .bind (blind.bound start) fun first => .bind (blind.bound stop) fun last => ?_
  exact .bind (blind.bound step) fun step =>
    .guard .zeroStep (.change fun _ _ alike => alike.addList _)

end Loops

section Calls

theorem bindParameters (scope : Handle) (params : List (String × Value)) :
    Eval.Same (Evaluator.bindParameters f scope s params)
      (Evaluator.bindParameters f scope t params) := by
  induction params with
  | nil => exact .pure ()
  | cons param rest ih => exact .bind (.act (.declare scope param.1 param.2 false)) fun _ => ih

theorem callBuiltIn (b : BuiltIn) (args : List Value) :
    Eval.Same (Evaluator.callBuiltIn f b args s) (Evaluator.callBuiltIn f b args t) :=
  .ofEffect _ (.call b args _ f.scope)

include blind

theorem bodyValue {body body' : List Node}
    (same : relocateAll .forget body = relocateAll .forget body') :
    Eval.Same (E.bodyValue f body) (E.bodyValue f body') := by
  rw [funext (Evaluator.bodyValue_eq E f body), funext (Evaluator.bodyValue_eq E f body')]
  -- both bodies do what they do where they stand nowhere
  have blocks : Eval.Same (E.block f body) (E.block f body') :=
    (blind.block body).trans (same ▸ (blind.block body').symm)
  refine .map blocks fun p q ends => ?_
  cases ends with
  | value alike => exact .value alike
  | stop both alike =>
    cases both with
    | exitFunction v => exact .value alike
    | failed fault trace notes s t => exact .stop (.failed fault trace notes s t) alike
    | exitLoop s t => exact .stop (.exitLoop s t) alike
    | nextTurn s t => exact .stop (.nextTurn s t) alike
    | exhausted => exact .stop .exhausted alike

theorem callFunction (maxDepth : Nat) {g g' : Function} (same : g.forget = g'.forget)
    (args : List Value) :
    Eval.Same (E.callFunction f maxDepth g args s) (E.callFunction f maxDepth g' args t) := by
  obtain ⟨name, params, body, closure⟩ := g
  obtain ⟨name', params', body', closure'⟩ := g'
  obtain ⟨rfl, rfl, bodies, rfl⟩ := Function.mk.inj same
  unfold Evaluator.callFunction
  refine .guard _ (.get fun u v alike => ?_)
  rw [alike.callDepth]
  refine Same.guard _ ?_ alike
  exact .bind (.change fun _ _ alike => alike.addScope _) fun scope =>
    .bind (bindParameters scope _) fun _ => .nested (blind.bodyValue bodies)

theorem callValue (maxDepth : Nat) (callee : Value) (args : List Value) :
    Eval.Same (E.callValue f maxDepth callee args s) (E.callValue f maxDepth callee args t) := by
  cases callee with
  | function h =>
    -- the two stores may hold different bodies under one handle, so two functions are called
    intro u v alike
    exact blind.callFunction maxDepth (alike.world.store.function h) args alike
  | builtIn h =>
    exact .bind (.read fun _ _ alike => by rw [alike.builtIns]) fun b => callBuiltIn b args
  | _ => exact .fail _

theorem call (maxDepth : Nat) (callee : Node) (args : List Node) :
    Eval.Same (E.call f maxDepth callee args s)
      (E.call f maxDepth (callee.relocate .forget) (relocateAll .forget args) t) :=
  .bind (blind callee f) fun v => .bind (blind.values args #[]) fun values =>
    blind.callValue maxDepth v values.toList

end Calls

section Imports

theorem bindExports (exports : List Export) :
    Eval.Same (Evaluator.bindExports f s exports) (Evaluator.bindExports f t exports) := by
  induction exports with
  | nil => exact .pure ()
  | cons e rest ih => exact .bind (.act (.declare f.scope e.name e.value e.constant)) fun _ => ih

theorem bindModule (binding name : String) (exports : List Export) :
    Eval.Same (Evaluator.bindModule f binding name exports s)
      (Evaluator.bindModule f binding name exports t) :=
  .bind (.change fun _ _ alike => alike.addModule _) fun value =>
    .act (.declare f.scope binding value true)

theorem bindImport (binding : Option ImportAlias) (name : String) (exports : List Export) :
    Eval.Same (Evaluator.bindImport f binding name exports s)
      (Evaluator.bindImport f binding name exports t) := by
  cases binding with
  | none => exact .bind (bindModule _ name exports) fun _ => .pure Value.null
  | some chosen =>
    cases chosen with
    | wildcard => exact .bind (bindExports exports) fun _ => .pure Value.null
    | name chosen => exact .bind (bindModule chosen name exports) fun _ => .pure Value.null

include blind

theorem statements {nodes nodes' : List Node}
    (same : relocateAll .forget nodes = relocateAll .forget nodes') :
    Eval.Same (E.statements f nodes) (E.statements f nodes') := by
  -- by way of the nodes that stand nowhere, which both become
  have values : Eval.Same (E.values f nodes #[]) (E.values f nodes' #[]) :=
    (blind.values nodes #[]).trans (same ▸ (blind.values nodes' #[]).symm)
  exact .mapInterrupt (.bind values fun found => .pure found.toList) fun _ _ both => both.escaped f

theorem runModule (name : String) (path canonical : Path) (text : String) :
    Eval.Same (E.runModule f name path canonical text s)
      (E.runModule f name path canonical text t) := by
  refine .mapInterrupt ?_ fun _ _ both => both.withNote _
  have parsed : Eval.Same (Eval.parse path.text text) (Eval.parse path.text text) := by
    unfold Eval.parse
    cases Node.ofText path.text text with
    | ok nodes => exact .pure nodes
    | error d => exact .throw (.failed d.fault d.trace d.notes d.span d.span)
  refine .bind parsed fun nodes => .bind (.newRoot f.trace) fun scope => ?_
  refine .bind (.within canonical (blind.statements rfl)) fun _ => ?_
  exact .read fun _ _ alike => by rw [Store.exports, Store.exports, alike.scope]

theorem loadFile (host : Host) (name : String) (path : Path) :
    Eval.Same (E.loadFile f host name path s) (E.loadFile f host name path t) := by
  refine .get fun u v alike => ?_
  rw [alike.importStack]
  cases circular : v.importStack.any (·.same (host.files.canonical path)) with
  | true =>
    cases running : v.importStack with
    | nil =>
      rw [running] at circular
      cases circular
    | cons importer rest =>
      -- the importer is a file that runs, so it is not looked up in the place of the import
      exact Same.fail_bind _ alike
  | false =>
    cases host.files.read path with
    | ok text => exact blind.runModule name path _ text alike
    | error reason => exact Same.fail _ alike

theorem importModule (host : Host) (module : Node) (binding : Option ImportAlias) :
    Eval.Same (E.importModule f host module binding s)
      (E.importModule f host (module.relocate .forget) binding t) := by
  refine .bind (blind module f) fun value => ?_
  cases value with
  | string name =>
    have directory : Eval.Same Evaluator.scriptDirectory? Evaluator.scriptDirectory? :=
      .get fun u v alike => by
        rw [alike.importStack]
        exact .value alike
    refine .bind directory fun directory => ?_
    cases host.resolve? directory name with
    | none => exact .fail_bind _
    | some source =>
      cases source with
      | file path =>
        exact .bind (blind.loadFile host name path) fun exports => bindImport binding name exports
      | native m =>
        exact .bind (.act (.exports m)) fun exports => bindImport binding name exports
  | _ => exact .fail _

end Imports

include blind in
theorem step {host : Host} {fuel : Nat} : (Evaluator.step host fuel E).Blind := by
  intro node f
  cases node with
  | number _ _ | string _ _ => exact .pure _
  | binary left operator right _ => exact blind.binary left operator right
  | unary operator operand _ => exact blind.unary operator operand
  | access name _ => exact access name
  | declare name constant value _ => exact blind.declare name constant value
  | assign name compound value _ => exact blind.assign name compound value
  | list items _ => exact blind.list items
  | dictionary entries _ => exact blind.dictionary entries
  | getIndex base index _ => exact blind.getIndex base index
  | setIndex base index value _ => exact blind.setIndex base index value
  | member base name _ => exact blind.member base name
  | function name params body _ => exact function name params body
  | call callee args _ => exact blind.call _ callee args
  | ifElse branches otherwise _ => exact blind.ifElse branches otherwise
  | whileLoop condition body _ => exact blind.whileLoop condition body fuel
  | forLoop item _ iterable body _ => exact blind.forLoop fuel item iterable body
  | exitFunction value _ =>
    cases value with
    | none => exact blind.exitFunction none
    | some value => exact blind.exitFunction (some value)
  | exitLoop _ => exact exitLoop
  | nextTurn _ => exact nextTurn
  | importModule module binding _ => exact blind.importModule host module binding
  | range start stop step _ => exact blind.range start stop step

theorem evaluate (host : Host) (fuel : Nat) : Evaluator.Blind (BasicScript.evaluate host fuel) := by
  induction fuel with
  | zero => exact fun _ _ => .throw .exhausted
  | succ fuel ih => exact ih.step

end Evaluator.Blind

end BasicScript
