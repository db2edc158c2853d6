import BasicScript.Proofs.Evaluate.Call

/-! Coupled evaluators do the same with imports. The module of a file runs in a frame of its own,
whose interrupts become faults of the importer with a note. -/

set_option autoImplicit false

namespace BasicScript

theorem Interrupt.escaped_eq {x : Interrupt} (frame : Frame) (plain : x.isSignal = false) :
    x.escaped frame = x := by
  cases x with
  | failed _ | exhausted => rfl
  | exitFunction _ | exitLoop _ | nextTurn _ => cases plain

theorem Interrupt.carries_escaped {x : Interrupt} {owns : Value → Prop} (frame : Frame) :
    (x.escaped frame).Carries owns := by
  cases x <;> trivial

theorem Interrupt.carries_withNote {x : Interrupt} {owns : Value → Prop} (note : String)
    (carries : x.Carries owns) : (x.withNote note).Carries owns := by
  cases x with
  | exitFunction _ => exact carries
  | failed _ | exitLoop _ | nextTurn _ | exhausted => trivial

def Evaluator.bindImport (frame : Frame) (binding : Option ImportAlias) (name : String)
    (exports : List Export) (span : Span) : Eval Value := do
  match binding with
  | some .wildcard => bindExports frame span exports
  | some (.name chosen) => bindModule frame chosen name exports span
  | none => bindModule frame (defaultAlias name) name exports span
  return .null

def Evaluator.loadExports (evaluate : Evaluator) (frame : Frame) (host : Host) (name : String)
    (nameSpan span : Span) : Eval (List Export) := do
  match host.resolve? (← scriptDirectory?) name with
  | some (.file path) => loadFile evaluate frame host name path span
  | some (.native native) => Eval.ofAct frame span native.exports
  | none =>
    let config := host.config
    Eval.fail frame (.moduleNotFound name config.extension config.modulesFolder) nameSpan

/-- An import finds a name, loads the exports of that module and binds them. -/
theorem Evaluator.importModule_eq (evaluate : Evaluator) (frame : Frame) (host : Host) (module : Node)
    (binding : Option ImportAlias) (span : Span) :
    importModule evaluate frame host module binding span = (do
      match ← evaluate module frame with
      | .string name =>
        let exports ← loadExports evaluate frame host name module.span span
        bindImport frame binding name exports span
      | v => Eval.fail frame (.wrongType ValueType.string.name v.type.name) module.span) := by
  refine congrArg (evaluate module frame >>= ·) (funext fun value => ?_)
  cases value with
  | string name =>
    simp only [loadExports, bind_assoc]
    refine congrArg (scriptDirectory? >>= ·) (funext fun directory => ?_)
    cases host.resolve? directory name with
    | none => rfl
    | some source => cases source <;> rfl
  | _ => rfl

theorem Host.native_mem_of_resolve? {host : Host} {directory : Option Path} {name : String}
    {m : NativeModule} (found : host.resolve? directory name = some (.native m)) :
    m ∈ host.natives := by
  unfold resolve? at found
  split at found
  · cases found
  · obtain ⟨m', known, same⟩ := Option.map_eq_some_iff.mp found
    cases same
    exact List.mem_of_find?_eq_some known

theorem Agree.newRoot {D : Discipline} {cut : Interrupt → Prop}
    {stops : Interrupt → Interrupt → Prop} {s : Session} {trace trace' : List String} {span : Span}
    (holds : D.holds s.world.store) :
    Agree D cut stops s D.runs (Eval.newRoot trace span s) (Eval.newRoot trace' span s) := by
  rw [Eval.newRoot_eq, Eval.newRoot_eq]
  have ⟨holds, runs⟩ := D.root_added holds
  exact .value ⟨holds, Store.extends_withRoot, rfl, rfl⟩ runs

namespace Coupling

variable {D : Discipline} {host : Host} {limit : Nat} {C : Coupling D host limit}
  {first second : Evaluator} {f : Frame} {τ : List String} {s : Session}

namespace Ready

theorem bindExports {span : Span} {exports : List Export} (ready : C.Ready f τ s)
    (owned : D.ownsExports s.world.store exports) :
    C.Agrees f τ s Discipline.anything (Evaluator.bindExports f span exports s)
      (Evaluator.bindExports (f.withTrace τ) span exports s) := by
  induction exports generalizing s with
  | nil => exact .pure ready.holds trivial
  | cons e rest ih =>
    apply Agree.bind (ready.act (Discipline.declare ready.holds ready.runs (owned e (by simp))))
    intro _ t after _
    exact ih (ready.after after) fun other inside =>
      D.owns_mono after.grows (owned other (by simp [inside]))

theorem bindModule {binding name : String} {span : Span} {exports : List Export}
    (ready : C.Ready f τ s) (owned : D.ownsExports s.world.store exports) :
    C.Agrees f τ s Discipline.anything (Evaluator.bindModule f binding name exports span s)
      (Evaluator.bindModule (f.withTrace τ) binding name exports span s) := by
  have ⟨holds, owns⟩ := D.module_added
    (m := ⟨name, exports.map fun e => (e.name, e.value)⟩) ready.holds fun entry inside => by
      obtain ⟨e, found, rfl⟩ := List.mem_map.mp inside
      exact owned e found
  apply Agree.bind (P := D.owns) (.change holds (Store.extends_addModule _) owns)
  intro value t after owned
  have ready := ready.after after
  exact ready.act (Discipline.declare ready.holds ready.runs owned)

theorem bindImport {name : String} {binding : Option ImportAlias} {span : Span}
    {exports : List Export} (ready : C.Ready f τ s)
    (owned : D.ownsExports s.world.store exports) :
    C.Agrees f τ s D.owns (Evaluator.bindImport f binding name exports span s)
      (Evaluator.bindImport (f.withTrace τ) binding name exports span s) := by
  have done {t : Session} (after : D.After s t) : C.Agrees f τ t D.owns
      ((pure .null : Eval Value) t) ((pure .null : Eval Value) t) :=
    .pure after.holds (D.owns_plain rfl)
  cases binding with
  | none => exact Agree.bind (ready.bindModule owned) fun _ _ after _ => done after
  | some chosen =>
    cases chosen with
    | wildcard => exact Agree.bind (ready.bindExports owned) fun _ _ after _ => done after
    | name chosen => exact Agree.bind (ready.bindModule owned) fun _ _ after _ => done after

end Ready

namespace Coupled

variable (coupled : C.Coupled first second)

include coupled

theorem statements {nodes : List Node} (ready : C.Ready f τ s) :
    Agree D C.cut
      (fun x y => ∃ x' y', C.stops f τ x' y' ∧ x = x'.escaped f ∧ y = y'.escaped (f.withTrace τ)) s
      Discipline.anything (first.statements f nodes s)
      (second.statements (f.withTrace τ) nodes s) := by
  refine Agree.mapInterrupt ?_ (fun x y (both : C.stops f τ x y) => ⟨x, y, both, rfl, rfl⟩)
    (fun x owns _ => x.carries_escaped f) fun x gone => ?_
  · apply Agree.bind (coupled.values ready D.ownsAll_empty)
    intro values t after _
    exact .pure after.holds trivial
  · -- what cuts a run off is no signal, so it is not turned into a fault
    rw [x.escaped_eq f (C.cut_signal gone)]
    exact gone

theorem runModule {name : String} {path canonical : Path} {text : String} {span : Span}
    (ready : C.Ready f τ s) (leads : C.imports name path) (contains : host.files.read path = .ok text)
    (absent : ∀ p ∈ s.importStack, p.same canonical = false) :
    C.Agrees f τ s D.ownsExports (first.runModule f name path canonical text span s)
      (second.runModule (f.withTrace τ) name path canonical text span s) := by
  -- inside of the import, interrupts correspond once the note has been put on them
  let noted (x y : Interrupt) : Prop :=
    C.stops f τ (x.withNote (importNote name)) (y.withNote (importNote name))
  refine Agree.mapInterrupt ?_ (fun x y (both : noted x y) => both)
    (fun x owns => x.carries_withNote _) fun x => C.cut_withNote
  have parsed : Agree D C.cut noted s Discipline.anything (Eval.parse path.text text s)
      (Eval.parse path.text text s) := by
    unfold Eval.parse
    cases found : Node.ofText path.text text with
    | ok nodes => exact .pure ready.holds trivial
    | error d => exact .throw ready.holds (C.text ready.frames leads contains found) trivial
  apply Agree.bind parsed
  intro nodes t after _
  have ready := ready.after after
  apply Agree.bind (.newRoot ready.holds)
  intro scope u after' runs
  have ready := ready.after after'
  -- parsing and making the scope activate no file, so the file is still not active
  have absent : ∀ p ∈ u.importStack, p.same canonical = false := by
    rw [after'.importStack, after.importStack]
    exact absent
  have inner : C.Ready (f.enter (moduleEntry name) scope false) (moduleEntry name :: τ)
      ⟨u.world, canonical :: u.importStack, u.callDepth⟩ :=
    ⟨ready.holds, C.module name scope ready.frames absent, runs⟩
  have ran : Agree D C.cut noted u Discipline.anything
      (Eval.within canonical
        (first.statements (f.enter (moduleEntry name) scope false) nodes) u)
      (Eval.within canonical
        (second.statements ((f.withTrace τ).enter (moduleEntry name) scope false) nodes) u) := by
    refine Agree.within ((coupled.statements inner).stops_mono fun x y both => ?_)
    obtain ⟨x', y', both, rfl, rfl⟩ := both
    exact C.module_left both rfl
  apply Agree.bind ran
  intro _ r after'' _
  refine .read after''.holds fun e inside => ?_
  obtain ⟨slot, found, rfl⟩ := List.mem_map.mp inside
  exact D.owns_export after''.holds (D.runs_mono after''.grows runs) found

theorem loadFile {name : String} {path : Path} {span : Span} (ready : C.Ready f τ s)
    (leads : C.imports name path) :
    C.Agrees f τ s D.ownsExports (first.loadFile f host name path span s)
      (second.loadFile (f.withTrace τ) (host.withLimit limit) name path span s) := by
  refine Agree.get ?_
  cases circular : s.importStack.any (·.same (host.files.canonical path)) with
  | true =>
    simp only [Host.withLimit, circular, ↓reduceIte]
    exact ready.fail_bind rfl
  | false =>
    simp only [Host.withLimit, circular, Bool.false_eq_true, ↓reduceIte]
    cases found : host.files.read path with
    | error reason => exact ready.fail rfl
    | ok text =>
      refine coupled.runModule ready leads found fun p inside => ?_
      simpa using List.any_eq_false.mp circular p inside

theorem loadExports [D.Converts] {name : String} {nameSpan span : Span}
    (admits : D.Admits host.natives) (ready : C.Ready f τ s) :
    C.Agrees f τ s D.ownsExports (first.loadExports f host name nameSpan span s)
      (second.loadExports (f.withTrace τ) (host.withLimit limit) name nameSpan span s) := by
  refine Agree.bind (P := Discipline.anything) (m := Evaluator.scriptDirectory?)
    (.value (.refl ready.holds) trivial) fun directory t after _ => ?_
  have ready := ready.after after
  have same : (host.withLimit limit).resolve? directory name = host.resolve? directory name := rfl
  simp only [same]
  cases found : host.resolve? directory name with
  | none => exact ready.fail rfl
  | some source =>
    cases source with
    | file path => exact coupled.loadFile ready (C.resolved found)
    | native m =>
      have known : m ∈ host.natives := Host.native_mem_of_resolve? found
      exact ready.act (Discipline.exports ready.holds admits known)

theorem importModule [D.Converts] {module : Node} {binding : Option ImportAlias} {span : Span}
    (admits : D.Admits host.natives) (ready : C.Ready f τ s) :
    C.Agrees f τ s D.owns (first.importModule f host module binding span s)
      (second.importModule (f.withTrace τ) (host.withLimit limit) module binding span s) := by
  rw [Evaluator.importModule_eq, Evaluator.importModule_eq]
  apply Agree.bind (coupled module ready)
  intro value t after _
  have ready := ready.after after
  cases value with
  | string name =>
    exact Agree.bind (coupled.loadExports admits ready) fun exports u after owned =>
      (ready.after after).bindImport owned
  | number _ | boolean _ | null | list _ | dictionary _ | function _ | builtIn _ | module _ =>
    exact ready.fail rfl

end Coupled

end Coupling

end BasicScript
