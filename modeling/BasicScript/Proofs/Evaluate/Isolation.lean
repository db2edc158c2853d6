import BasicScript.Proofs.Evaluate.Scoping
import BasicScript.Proofs.Store.Region

/-! Isolation of imports. The file that an import leads to runs in a region of its own, so it
changes nothing that was there before; only the names that the import binds are then added to the
scope that the import stands in. They are the exports of the module: what its script declared in its
scope. -/

set_option autoImplicit false

namespace BasicScript

namespace Store

variable {s t u : Store} {h : Handle} {name : String} {slots : List Slot}

theorem PartOf.there (part : s.PartOf t) (there : h < s.scopes.size) : h < t.scopes.size :=
  (Array.getElem?_eq_some_iff.mp (part.scopes (Array.getElem?_eq_getElem there))).1

theorem PartOf.scope (part : s.PartOf t) (there : h < s.scopes.size) : t.scope h = s.scope h := by
  have found : s.scopes[h]? = some s.scopes[h] := Array.getElem?_eq_getElem there
  simp only [Store.scope, found, part.scopes found]

theorem PartOf.absent (part : s.PartOf t) (absent : t.declares h name = false) :
    s.declares h name = false := by
  by_cases there : h < s.scopes.size
  · rw [declares, part.scope there] at absent
    exact absent
  · -- a scope that is not there has no names
    rw [declares, Store.scope, Array.getElem?_eq_none (Nat.not_lt.mp there), Option.getD_none]
    exact Scope.declares_empty none name

theorem scope_gaining (there : h < s.scopes.size) (slots : List Slot) :
    (s.gaining h slots).scope h = (s.scope h).extend slots := by
  rw [gaining, scope_setScope, if_pos ⟨rfl, there⟩]

theorem absent_of_gaining (absent : (s.gaining h slots).declares h name = false) :
    s.declares h name = false := by
  rw [declares, gaining, scope_setScope] at absent
  split at absent
  · refine Bool.eq_false_iff.mpr fun declared => Bool.eq_false_iff.mp absent ?_
    exact Scope.declares_iff.mpr (Scope.mem_order_extend.mpr (.inl (Scope.declares_iff.mp declared)))
  · exact absent

/-- The slots come to the scope `h` under names that are new there, and all else stands in `t` as it
stood in `s`. -/
structure GainsOnly (s : Store) (h : Handle) (slots : List Slot) (t : Store) : Prop where
  absent : ∀ slot ∈ slots, s.declares h slot.name = false
  distinct : (slots.map Slot.name).Nodup
  part : (s.gaining h slots).PartOf t

namespace GainsOnly

theorem nil (part : s.PartOf t) : s.GainsOnly h [] t := by
  refine ⟨fun _ => (nomatch ·), List.nodup_nil, ?_⟩
  rw [gaining_nil]
  exact part

theorem of_partOf (part : s.PartOf t) (absent : ∀ slot ∈ slots, t.declares h slot.name = false)
    (distinct : (slots.map Slot.name).Nodup) : s.GainsOnly h slots (t.gaining h slots) where
  absent slot inside := part.absent (absent slot inside)
  distinct := distinct
  part := part.gaining slots

/-- The slots that the scope had stay what they are, and the new ones stand behind them. -/
theorem slots_eq (gains : s.GainsOnly h slots t) (there : h < s.scopes.size) :
    (t.scope h).slots = (s.scope h).slots ++ slots := by
  have still : h < (s.gaining h slots).scopes.size := by simpa [gaining] using there
  rw [gains.part.scope still, scope_gaining there]
  refine Scope.slots_extend (List.nodup_append.mpr ⟨(s.scope h).distinct, gains.distinct, ?_⟩)
  rintro name old _ new rfl
  obtain ⟨slot, inside, rfl⟩ := List.mem_map.mp new
  exact Bool.eq_false_iff.mp (gains.absent slot inside) (Scope.declares_iff.mpr old)

end GainsOnly

end Store

namespace Eval

variable {α : Type} {s t : Session} {a : α}

theorem ok_of_mapInterrupt {f : Interrupt → Interrupt} {body : Eval α}
    (ended : mapInterrupt f body s = .ok a t) : body s = .ok a t := by
  simp only [mapInterrupt, tryCatch_eq] at ended
  generalize body s = outcome at ended ⊢
  cases outcome with
  | ok _ _ => exact ended
  | error _ _ => cases ended

theorem ok_of_within {path : Path} {body : Eval α} (ended : within path body s = .ok a t) :
    ∃ u, body ⟨s.world, path :: s.importStack, s.callDepth⟩ = .ok a u ∧ u.world = t.world := by
  simp only [within] at ended
  generalize body _ = outcome at ended ⊢
  cases outcome with
  | ok b u =>
    cases ended
    exact ⟨u, rfl, rfl⟩
  | error _ _ => cases ended

theorem ok_of_parse {name text : String} {nodes : List Node}
    (ended : parse name text s = .ok nodes t) : Node.ofText name text = .ok nodes ∧ t = s := by
  unfold parse at ended
  cases found : Node.ofText name text with
  | ok nodes =>
    rw [found] at ended
    cases ended
    exact ⟨rfl, rfl⟩
  | error d =>
    rw [found] at ended
    cases ended

end Eval

namespace Evaluator

variable {host : Host} {fuel : Nat} {s t : Session} {frame : Frame} {span : Span}

/-- The file at `path` has run as a module, from the session `s` to the session `t` at its end. In
its scope its script has declared these slots, in this order. -/
def RanAsModule (host : Host) (fuel : Nat) (frame : Frame) (name : String) (path : Path)
    (s t : Session) (declared : List Slot) : Prop :=
  ∃ text nodes values, host.files.read path = .ok text ∧ Node.ofText path.text text = .ok nodes ∧
    statements (evaluate host fuel)
      (frame.enter ("<module " ++ name ++ ">") s.world.store.scopes.size false) nodes
      ⟨⟨s.world.store.addRoot.2, s.world.console⟩, host.files.canonical path :: s.importStack,
        s.callDepth⟩ = .ok values t ∧
    (t.world.store.scope s.world.store.scopes.size).slots =
      BuiltIn.rootSlots s.world.store.builtIns.size ++ declared ∧
    (∀ slot ∈ declared, slot.builtIn = false) ∧ (declared.map Slot.name).Nodup

theorem RanAsModule.scripted {name : String} {path : Path} {declared : List Slot}
    (ran : RanAsModule host fuel frame name path s t declared) :
    ∀ slot ∈ declared, slot.builtIn = false := by
  obtain ⟨_, _, _, _, _, _, _, scripted, _⟩ := ran
  exact scripted

theorem RanAsModule.names_nodup {name : String} {path : Path} {declared : List Slot}
    (ran : RanAsModule host fuel frame name path s t declared) :
    (declared.map Slot.name).Nodup := by
  obtain ⟨_, _, _, _, _, _, _, _, names⟩ := ran
  exact names

def slotOfExport (e : Export) : Slot := ⟨e.name, e.value, e.constant, false⟩

def exportOfSlot (slot : Slot) : Export := ⟨slot.name, slot.value, slot.constant⟩

theorem slotOfExport_exportOfSlot {slots : List Slot}
    (declared : ∀ slot ∈ slots, slot.builtIn = false) :
    (slots.map exportOfSlot).map slotOfExport = slots := by
  rw [List.map_map]
  refine (List.map_congr_left fun slot inside => ?_).trans (List.map_id _)
  simp only [Function.comp, slotOfExport, exportOfSlot, ← declared slot inside, id]

/-- The scope of a module holds the slots of the interpreter and those that its script declared. -/
theorem slots_of_module {name : String} {nodes : List Node} {files : List Path}
    {values : List Value}
    (ran : statements (evaluate host fuel) (frame.enter name s.world.store.scopes.size false) nodes
      ⟨⟨s.world.store.addRoot.2, s.world.console⟩, files, s.callDepth⟩ = .ok values t) :
    ∃ declared, (t.world.store.scope s.world.store.scopes.size).slots =
        BuiltIn.rootSlots s.world.store.builtIns.size ++ declared ∧
      (∀ slot ∈ declared, slot.builtIn = false) ∧ (declared.map Slot.name).Nodup := by
  -- the scopes are followed from the moment at which the module has its scope, so that the slots of
  -- the interpreter count as slots that were there before
  let inner := frame.enter name s.world.store.scopes.size false
  let began : Session := ⟨⟨s.world.store.addRoot.2, s.world.console⟩, files, s.callDepth⟩
  have ready : (scoping host began.world.store (· = inner.scope)).Ready inner inner.trace began :=
    ready_scoping (.inl rfl)
  have ended : Eval.final (statements (evaluate host fuel) inner nodes) began = t := by
    simp only [Eval.final, inner, began, ran]
  have becomes : began.world.store.Becomes (· = inner.scope) t.world.store := by
    rw [← ended]
    exact ((coupled_scoping host fuel _ _).statements ready).final.holds
  have there : inner.scope < began.world.store.scopes.size := by
    simp [inner, began, Frame.enter, Store.addRoot, Store.withRoot]
  have root : began.world.store.scope inner.scope =
      (Scope.empty none).extend (BuiltIn.rootSlots s.world.store.builtIns.size) :=
    Store.scope_withRoot
  have ofRoot := becomes.scopes there
  rw [root] at ofRoot
  have slots := BuiltIn.slots_root s.world.store.builtIns.size
  obtain ⟨declared, same, scripted⟩ := ofRoot.slots_eq fun slot inside =>
    (BuiltIn.rootSlots_fixed _ slot (slots ▸ inside)).1
  rw [slots] at same
  refine ⟨declared, same, scripted, ?_⟩
  have names : ((t.world.store.scope inner.scope).slots.map Slot.name).Nodup :=
    becomes.distinct inner.scope
  rw [same, List.map_append] at names
  exact (List.nodup_append.mp names).2.1

/-- A module exports what its script declared. -/
theorem exports_of_module {scope : Scope} {first : Handle} {declared : List Slot}
    (slots : scope.slots = BuiltIn.rootSlots first ++ declared)
    (scripted : ∀ slot ∈ declared, slot.builtIn = false) : scope.exports = declared := by
  have hidden : (BuiltIn.rootSlots first).filter (!·.builtIn) = [] :=
    List.filter_eq_nil_iff.mpr fun slot inside => by
      simp [(BuiltIn.rootSlots_fixed first slot inside).2]
  have shown : declared.filter (!·.builtIn) = declared :=
    List.filter_eq_self.mpr fun slot inside => by simp [scripted slot inside]
  rw [Scope.exports, slots, List.filter_append, hidden, shown, List.nil_append]

theorem runModule_ok {e : Evaluator} {name text : String} {path canonical : Path}
    {exports : List Export}
    (ended : runModule e frame name path canonical text span s = .ok exports t) :
    ∃ nodes values u, Node.ofText path.text text = .ok nodes ∧
      statements e (frame.enter (moduleEntry name) s.world.store.scopes.size false) nodes
        ⟨⟨s.world.store.addRoot.2, s.world.console⟩, canonical :: s.importStack, s.callDepth⟩ =
          .ok values u ∧
      exports = (u.world.store.exports s.world.store.scopes.size).map exportOfSlot := by
  have body := Eval.ok_of_mapInterrupt ended
  obtain ⟨nodes, u, parsed, rest⟩ := ok_of_bind body
  obtain ⟨tree, rfl⟩ := Eval.ok_of_parse parsed
  have made := Eval.newRoot_eq frame.trace span u.world u.importStack u.callDepth
  have rest := (bind_of_ok made).symm.trans rest
  obtain ⟨values, v, ran, exported⟩ := ok_of_bind rest
  obtain ⟨inner, done, same⟩ := Eval.ok_of_within ran
  cases exported
  exact ⟨nodes, values, inner, tree, done, by rw [same]; rfl⟩

theorem loadFile_ok {name : String} {path : Path} {exports : List Export}
    (ended : loadFile (evaluate host fuel) frame host name path span s = .ok exports t) :
    ∃ u declared, RanAsModule host fuel frame name path s u declared ∧
      exports = declared.map exportOfSlot := by
  obtain ⟨now, u, looked, rest⟩ := ok_of_bind ended
  cases looked
  cases circular : s.importStack.any (·.same (host.files.canonical path)) with
  | true =>
    simp only [circular, ↓reduceIte] at rest
    obtain ⟨_, _, failed, _⟩ := ok_of_bind rest
    cases failed
  | false =>
    simp only [circular, Bool.false_eq_true, ↓reduceIte] at rest
    cases readable : host.files.read path with
    | error reason =>
      simp only [readable] at rest
      cases rest
    | ok text =>
      simp only [readable] at rest
      obtain ⟨nodes, values, u, tree, ran, exported⟩ := runModule_ok rest
      obtain ⟨declared, slots, scripted, names⟩ := slots_of_module ran
      refine ⟨u, declared, ⟨text, nodes, values, readable, tree, ran, slots, scripted, names⟩, ?_⟩
      rw [exported, Store.exports, exports_of_module slots scripted]

/-- Nothing that was there before is changed by what an import loads. -/
theorem loadExports_apart {name : String} {nameSpan : Span}
    (standard : host.natives = Registry.standard) : s.world.store.PartOf (Eval.final
      (loadExports (evaluate host fuel) frame host name nameSpan span) s).world.store := by
  -- the scope of the importer is not in the region, but loading does not look at it
  have root : loadExports (evaluate host fuel) frame host name nameSpan span =
      loadExports (evaluate host fuel) (.root ⟨frame.trace, s.world.store.scopes.size⟩) host name
        nameSpan span := rfl
  rw [root]
  let C := Coupling.single (.region s.world.store) (.any host)
  have admits : (Discipline.region s.world.store).Admits host.natives :=
    standard ▸ Discipline.region_admits _
  have coupled : C.Coupled (evaluate host fuel) (evaluate host fuel) :=
    Coupling.evaluate (.same fuel) admits
  have ready : C.Ready (.root ⟨frame.trace, s.world.store.scopes.size⟩) frame.trace s :=
    ⟨Store.Apart.refl _, ⟨rfl, trivial⟩, Nat.le_refl _⟩
  exact Store.partOf_of_region (coupled.loadExports admits ready).final.holds

/-- A run adds the slots to the scope `h`, where their names are new, and changes nothing else in
the store. If it is interrupted, the name of one of them has been taken, and it has added those in
front of it. -/
inductive Gains {α : Type} (h : Handle) (s : Session) (slots : List Slot) :
    EStateM.Result Interrupt Session α → Prop
  | whole {a : α} {t : Session} (absent : ∀ slot ∈ slots, s.world.store.declares h slot.name = false)
      (same : t.world.store = s.world.store.gaining h slots) : Gains h s slots (.ok a t)
  | part {d : Diagnostic} {t : Session} (before after : List Slot) (clash : Slot)
      (split : slots = before ++ clash :: after)
      (absent : ∀ slot ∈ before, s.world.store.declares h slot.name = false)
      (same : t.world.store = s.world.store.gaining h before)
      (taken : t.world.store.declares h clash.name = true)
      (fault : d.fault = .duplicateDeclaration clash.name) : Gains h s slots (.error (.failed d) t)

namespace Gains

variable {α β : Type} {h : Handle} {slots more : List Slot}

theorem pure (a : α) : Gains h s [] ((Pure.pure a : Eval α) s) :=
  .whole (fun _ => (nomatch ·)) Store.gaining_nil.symm

theorem absent_append {store : Store}
    (first : ∀ slot ∈ slots, store.declares h slot.name = false)
    (second : ∀ slot ∈ more, (store.gaining h slots).declares h slot.name = false) :
    ∀ slot ∈ slots ++ more, store.declares h slot.name = false := by
  intro slot inside
  rcases List.mem_append.mp inside with inside | inside
  · exact first slot inside
  · exact Store.absent_of_gaining (second slot inside)

theorem bind {m : Eval α} {k : α → Eval β} (begun : Gains h s slots (m s))
    (ended : ∀ a t, Gains h t more (k a t)) : Gains h s (slots ++ more) ((m >>= k) s) := by
  simp only [Bind.bind, EStateM.bind]
  generalize m s = outcome at begun ⊢
  cases begun with
  | part before after clash split absent same taken fault =>
    exact .part before (after ++ more) clash (by simp [split]) absent same taken fault
  | @whole a t absent same =>
    have ended := ended a t
    dsimp only
    generalize k a t = outcome at ended ⊢
    cases ended with
    | whole new last =>
      rw [same] at new
      exact .whole (absent_append absent new) (by rw [last, same, Store.gaining_append])
    | part before after clash split new last taken fault =>
      rw [same] at new
      refine .part (slots ++ before) after clash (by simp [split]) (absent_append absent new) ?_ taken
        fault
      rw [last, same, Store.gaining_append]

theorem declare (name : String) (value : Value) (constant : Bool) :
    Gains frame.scope s [⟨name, value, constant, false⟩]
      (Eval.ofAct frame span (Store.declare frame.scope name value constant) s) := by
  simp only [Eval.ofAct, Eval.ofEffect, Effect.ofAct, Store.declare, Store.declareSlot]
  cases taken : s.world.store.declares frame.scope name with
  | true =>
    have none : ∀ slot ∈ [], s.world.store.declares frame.scope (Slot.name slot) = false :=
      fun _ inside => absurd inside List.not_mem_nil
    exact .part [] [] _ rfl none Store.gaining_nil.symm taken rfl
  | false =>
    refine .whole (fun slot inside => ?_) rfl
    cases List.mem_singleton.mp inside
    exact taken

theorem bindExports (exports : List Export) :
    Gains frame.scope s (exports.map slotOfExport)
      (Evaluator.bindExports frame span exports s) := by
  induction exports generalizing s with
  | nil => exact .pure ()
  | cons e rest ih => exact bind (declare e.name e.value e.constant) fun _ _ => ih

end Gains

/-- What the scope of an import gets: the exports, or one name for the module with this handle. -/
def slotsOfImport (binding : Option ImportAlias) (name : String) (m : Handle)
    (declared : List Slot) : List Slot :=
  match binding with
  | some .wildcard => declared
  | some (.name chosen) => [⟨chosen, .module m, true, false⟩]
  | none => [⟨defaultAlias name, .module m, true, false⟩]

theorem slotsOfImport_nodup {binding : Option ImportAlias} {name : String} {m : Handle}
    {declared : List Slot} (names : (declared.map Slot.name).Nodup) :
    ((slotsOfImport binding name m declared).map Slot.name).Nodup := by
  unfold slotsOfImport
  split
  · exact names
  · exact List.nodup_singleton _
  · exact List.nodup_singleton _

variable (frame span) in
/-- Binding adds the slots of the import to a store in which the module may have got a handle. -/
theorem bindImport_gains (binding : Option ImportAlias) (name : String) (declared : List Slot)
    (scripted : ∀ slot ∈ declared, slot.builtIn = false) : ∃ base : Session,
      s.world.store.PartOf base.world.store ∧
      (binding ≠ some .wildcard → base.world.store.modules[s.world.store.modules.size]? =
        some ⟨name, declared.map fun slot => (slot.name, slot.value)⟩) ∧
      Gains frame.scope base (slotsOfImport binding name s.world.store.modules.size declared)
        (bindImport frame binding name (declared.map exportOfSlot) span s) := by
  -- a module value is made first, and then bound to a name
  let module : Exports := ⟨name, (declared.map exportOfSlot).map fun e => (e.name, e.value)⟩
  let made : Session := ⟨⟨(s.world.store.addModule module).2, s.world.console⟩, s.importStack,
    s.callDepth⟩
  have there : made.world.store.modules[s.world.store.modules.size]? =
      some ⟨name, declared.map fun slot => (slot.name, slot.value)⟩ := by
    simp [made, module, Store.addModule, Function.comp_def, exportOfSlot]
  have named (chosen : String) : Gains frame.scope made
      [⟨chosen, .module s.world.store.modules.size, true, false⟩]
      ((do
        bindModule frame chosen name (declared.map exportOfSlot) span
        return .null : Eval Value) s) :=
    Gains.bind (Gains.declare chosen _ true) fun _ t => .pure (s := t) Value.null
  cases binding with
  | none => exact ⟨made, Store.partOf_addModule _, fun _ => there, named _⟩
  | some chosen =>
    cases chosen with
    | name chosen => exact ⟨made, Store.partOf_addModule _, fun _ => there, named chosen⟩
    | wildcard =>
      refine ⟨s, .refl _, fun other => absurd rfl other, ?_⟩
      have bound : Gains frame.scope s ((declared.map exportOfSlot).map slotOfExport)
          (bindExports frame span (declared.map exportOfSlot) s) := .bindExports _
      rw [slotOfExport_exportOfSlot scripted] at bound
      have done := Gains.bind bound fun _ t => .pure (s := t) Value.null
      rw [List.append_nil] at done
      exact done

/-- An import under a literal name. One step is taken by the import itself and one by the name. -/
theorem evaluate_importModule {name : String} {nameSpan : Span} {binding : Option ImportAlias} :
    evaluate host (fuel + 2) (.importModule (.string name nameSpan) binding span) frame =
      (do
        let exports ← loadExports (evaluate host (fuel + 1)) frame host name nameSpan span
        bindImport frame binding name exports span) := by
  show importModule (evaluate host (fuel + 1)) frame host (.string name nameSpan) binding span = _
  rw [importModule_eq]
  rfl

theorem loadExports_file {name : String} {nameSpan : Span} {path : Path} {e : Evaluator}
    (found : host.resolve? (s.importStack.head?.bind Path.parent?) name = some (.file path)) :
    loadExports e frame host name nameSpan span s = loadFile e frame host name path span s := by
  have directory : scriptDirectory? s = .ok (s.importStack.head?.bind Path.parent?) s := rfl
  rw [loadExports, bind_of_ok directory]
  simp only [found]

/-- How an import of a file ends: without a trace in the store that was there before, or with some
slots more in the scope that the import stands in. -/
inductive Imported (host : Host) (fuel : Nat) (frame : Frame) (name : String) (path : Path)
    (binding : Option ImportAlias) (s : Session) : EStateM.Result Interrupt Session Value → Prop
  | unbound {x : Interrupt} {t : Session} (apart : s.world.store.PartOf t.world.store) :
      Imported host fuel frame name path binding s (.error x t)
  | bound {u base : Session} {declared : List Slot} {m : Handle}
      {outcome : EStateM.Result Interrupt Session Value}
      (ran : RanAsModule host fuel frame name path s u declared)
      (apart : s.world.store.PartOf base.world.store)
      (there : binding ≠ some .wildcard → base.world.store.modules[m]? =
        some ⟨name, declared.map fun slot => (slot.name, slot.value)⟩)
      (gains : Gains frame.scope base (slotsOfImport binding name m declared) outcome) :
      Imported host fuel frame name path binding s outcome

theorem loadFile_bind {name : String} {binding : Option ImportAlias} {path : Path}
    (apart : s.world.store.PartOf (Eval.final
      (loadFile (evaluate host fuel) frame host name path span) s).world.store) :
    Imported host fuel frame name path binding s
      ((loadFile (evaluate host fuel) frame host name path span >>= fun exports =>
        bindImport frame binding name exports span) s) := by
  simp only [bind, EStateM.bind]
  cases loaded : loadFile (evaluate host fuel) frame host name path span s with
  | error x t =>
    simp only [Eval.final, loaded] at apart
    exact .unbound apart
  | ok exports t =>
    simp only [Eval.final, loaded] at apart
    obtain ⟨u, declared, ran, rfl⟩ := loadFile_ok loaded
    obtain ⟨base, made, there, gains⟩ :=
      bindImport_gains (s := t) frame span binding name declared ran.scripted
    exact .bound ran (apart.trans made) there gains

theorem evaluate_imported {name : String} {nameSpan : Span} {binding : Option ImportAlias}
    {path : Path} (standard : host.natives = Registry.standard)
    (found : host.resolve? (s.importStack.head?.bind Path.parent?) name = some (.file path)) :
    Imported host (fuel - 1) frame name path binding s
      (evaluate host fuel (.importModule (.string name nameSpan) binding span) frame s) := by
  match fuel with
  | 0 | 1 => exact .unbound (.refl _)
  | fuel + 2 =>
    have loaded : loadExports (evaluate host (fuel + 1)) frame host name nameSpan span s = _ :=
      loadExports_file found
    have same : evaluate host (fuel + 2) (.importModule (.string name nameSpan) binding span) frame s =
        (loadFile (evaluate host (fuel + 1)) frame host name path span >>= fun exports =>
          bindImport frame binding name exports span) s := by
      rw [evaluate_importModule]
      simp only [bind, EStateM.bind, loaded]
    rw [same]
    refine loadFile_bind ?_
    have apart : s.world.store.PartOf (Eval.final
        (loadExports (evaluate host (fuel + 1)) frame host name nameSpan span) s).world.store :=
      loadExports_apart standard
    rwa [Eval.final, loaded] at apart

/-- An import of a file, evaluated anywhere, leaves all that was there before as it was, however it
ends, except that the scope it stands in may get slots behind those it has, under names that are new
there. If the import has a value, the file has run as a module, and the slots are either its
exports, which are what its script declared, or one constant for the module that holds them. -/
theorem import_isolated (host : Host) (standard : host.natives = Registry.standard) (fuel : Nat)
    (s : Session) (frame : Frame) (name : String) (nameSpan span : Span)
    (binding : Option ImportAlias) (path : Path)
    (found : host.resolve? (s.importStack.head?.bind Path.parent?) name = some (.file path)) :
    (∃ gained, s.world.store.GainsOnly frame.scope gained (Eval.final
      (evaluate host fuel (.importModule (.string name nameSpan) binding span) frame)
        s).world.store) ∧
    ∀ v t, evaluate host fuel (.importModule (.string name nameSpan) binding span) frame s =
        .ok v t →
      ∃ u declared m, RanAsModule host (fuel - 1) frame name path s u declared ∧
        s.world.store.GainsOnly frame.scope (slotsOfImport binding name m declared)
          t.world.store ∧
        (binding ≠ some .wildcard → t.world.store.modules[m]? =
          some ⟨name, declared.map fun slot => (slot.name, slot.value)⟩) := by
  have imported : Imported host (fuel - 1) frame name path binding s
      (evaluate host fuel (.importModule (.string name nameSpan) binding span) frame s) :=
    evaluate_imported standard found
  unfold Eval.final
  generalize evaluate host fuel _ frame s = outcome at imported ⊢
  cases imported with
  | unbound apart => exact ⟨⟨[], .nil apart⟩, fun _ _ => (nomatch ·)⟩
  | @bound u base declared m _ ran apart there gains =>
    -- the exports of a module have different names, as they stood in one scope
    have names : ((slotsOfImport binding name m declared).map Slot.name).Nodup :=
      slotsOfImport_nodup ran.names_nodup
    cases gains with
    | part before after clash split absent same taken fault =>
      rw [split, List.map_append] at names
      have names := (List.nodup_append.mp names).1
      exact ⟨⟨before, same ▸ .of_partOf apart absent names⟩, fun _ _ => (nomatch ·)⟩
    | @whole v t absent same =>
      have gains : s.world.store.GainsOnly frame.scope (slotsOfImport binding name m declared)
          t.world.store := same ▸ .of_partOf apart absent names
      refine ⟨⟨_, gains⟩, fun v t ended => ?_⟩
      cases ended
      exact ⟨u, declared, m, ran, gains, fun named => same ▸ there named⟩

/-- All names of a module, imported into a scope that has a variable and a constant. -/
theorem import_isolated_all :
    let host : Host := { config := { root := ⟨"/"⟩ }, files := ⟨[],
      [(["m.vlb"], .text "LET count = 0\nCONST limit = 3\ncount = limit + 1")]⟩ }
    let run := Eval.runText host 5 "main" "LET x = 2\nCONST k = 'low'"
    let s := run.final {}
    let node : Node := .importModule (.string "m" default) (some .wildcard) default
    s.world.store.exports 0 =
        [⟨"x", .number (.int 2), false, false⟩, ⟨"k", .string "low", true, false⟩] ∧
      ∃ v t u declared, evaluate host 5 node (.root ⟨["main"], 0⟩) s = .ok v t ∧
        RanAsModule host 4 (.root ⟨["main"], 0⟩) "m" ⟨"/m.vlb"⟩ s u declared ∧
        s.world.store.GainsOnly 0 declared t.world.store ∧
        declared = [⟨"count", .number (.int 4), false, false⟩,
          ⟨"limit", .number (.int 3), true, false⟩] ∧
        (t.world.store.scope 0).slots = (s.world.store.scope 0).slots ++ declared := by
  intro host run s node
  have first : (host.candidates none "m").find? host.files.isFile = some ⟨"/m.vlb"⟩ := by
    decide +kernel
  have found : host.resolve? (s.importStack.head?.bind Path.parent?) "m" =
      some (.file ⟨"/m.vlb"⟩) := by
    have idle : s.importStack = [] := by decide +kernel
    simp only [idle, Host.resolve?, List.head?_nil, Option.bind_none, first]
  have ended : Eval.hasValue (evaluate host 5 node (.root ⟨["main"], 0⟩)) s = true := by
    decide +kernel
  obtain ⟨v, t, ended⟩ := Eval.ok_of_hasValue ended
  obtain ⟨u, declared, m, ran, gains, _⟩ := (import_isolated host rfl 5 s (.root ⟨["main"], 0⟩) "m"
    default default (some .wildcard) ⟨"/m.vlb"⟩ found).2 v t ended
  have there : 0 < s.world.store.scopes.size := by decide +kernel
  have slots : (t.world.store.scope 0).slots = (s.world.store.scope 0).slots ++ declared :=
    gains.slots_eq there
  refine ⟨by decide +kernel, v, t, u, declared, ended, ran, gains, ?_, slots⟩
  -- what the module has declared is what the scope exports more than before
  have now : (Eval.final (evaluate host 5 node (.root ⟨["main"], 0⟩)) s).world.store.exports 0 =
      s.world.store.exports 0 ++ [⟨"count", .number (.int 4), false, false⟩,
        ⟨"limit", .number (.int 3), true, false⟩] := by
    decide +kernel
  have scripted : declared.filter (!·.builtIn) = declared :=
    List.filter_eq_self.mpr fun slot inside => by simp [ran.scripted slot inside]
  rw [Eval.final, ended, Store.exports, Store.exports, Scope.exports, Scope.exports, slots,
    List.filter_append, scripted] at now
  exact List.append_cancel_left now

end Evaluator

end BasicScript
