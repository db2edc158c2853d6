import BasicScript.Proofs.Evaluate.Isolation

/-! Failed imports. The scope that an import stands in is as before if the module cannot be loaded,
and if it cannot be bound to its name. Only an import of all names may leave some of them behind
when it fails: those in front of the first that is taken. -/

set_option autoImplicit false

namespace BasicScript

namespace Evaluator

variable {host : Host} {fuel : Nat} {s : Session} {frame : Frame} {span nameSpan : Span}
  {name : String} {binding : Option ImportAlias}

theorem exportOfSlot_slotOfExport (exports : List Export) :
    (exports.map slotOfExport).map exportOfSlot = exports := by
  rw [List.map_map]
  exact List.map_id _

theorem wildcard_of_slotsOfImport {m : Handle} {declared before after : List Slot} {first clash : Slot}
    (split : slotsOfImport binding name m declared = first :: before ++ clash :: after) :
    binding = some .wildcard ∧ declared = first :: before ++ clash :: after := by
  cases binding with
  | none => simp [slotsOfImport] at split
  | some chosen =>
    cases chosen with
    | wildcard => exact ⟨rfl, split⟩
    | name chosen => simp [slotsOfImport] at split

/-- A failed import leaves the scope that it stands in as it was, unless it is one of all names,
some of which it has declared before it met one that is taken. -/
theorem import_failed (standard : host.natives = Registry.standard)
    (there : frame.scope < s.world.store.scopes.size) {x : Interrupt} {t : Session}
    (failed : evaluate host fuel (.importModule (.string name nameSpan) binding span) frame s =
      .error x t) :
    t.world.store.scope frame.scope = s.world.store.scope frame.scope ∨
    binding = some .wildcard ∧ ∃ exports u before clash after d,
      loadExports (evaluate host (fuel - 1)) frame host name nameSpan span s = .ok exports u ∧
      exports.map slotOfExport = before ++ clash :: after ∧
      t.world.store.scope frame.scope = (s.world.store.scope frame.scope).extend before ∧
      t.world.store.declares frame.scope clash.name = true ∧
      x = .failed d ∧ d.fault = .duplicateDeclaration clash.name := by
  match fuel with
  | 0 | 1 =>
    cases failed
    exact .inl rfl
  | fuel + 2 =>
    rw [evaluate_importModule] at failed
    have apart : s.world.store.PartOf (Eval.final
        (loadExports (evaluate host (fuel + 1)) frame host name nameSpan span) s).world.store :=
      loadExports_apart standard
    cases loaded : loadExports (evaluate host (fuel + 1)) frame host name nameSpan span s with
    | error y u =>
      rw [bind_of_error loaded] at failed
      cases failed
      rw [Eval.final, loaded] at apart
      exact .inl (apart.scope there)
    | ok exports u =>
      rw [bind_of_ok loaded] at failed
      rw [Eval.final, loaded] at apart
      have scripted : ∀ slot ∈ exports.map slotOfExport, slot.builtIn = false := by simp [slotOfExport]
      -- the module has been loaded, so the fault is one of binding
      obtain ⟨base, made, _, gains⟩ := bindImport_gains (s := u) frame span binding name _
        scripted
      rw [exportOfSlot_slotOfExport, failed] at gains
      cases gains with
      | @part d _ before after clash split absent same taken fault =>
        have apart := apart.trans made
        have gained : t.world.store.scope frame.scope =
            (s.world.store.scope frame.scope).extend before := by
          rw [same, Store.scope_gaining (apart.there there), apart.scope there]
        cases before with
        | nil => exact .inl gained
        | cons first before =>
          obtain ⟨wildcard, split⟩ := wildcard_of_slotsOfImport split
          exact .inr ⟨wildcard, exports, u, first :: before, clash, after, d, loaded, split, gained, taken,
            rfl, fault⟩

/-- The second name of the module is taken, so the first one stays. -/
example :
    let host : Host :=
      { config := { root := ⟨"/"⟩ }, files := ⟨[], [(["m.vlb"], .text "LET a = 1\nLET b = 2")]⟩ }
    let run := Eval.runText host 9 "main" "LET b = 0\nIMPORT 'm' AS *"
    run.hasValue {} = false ∧
      (Eval.final run {}).world.store.lookup 0 "a" = .ok (.number (.int 1)) := by
  decide +kernel

end Evaluator

end BasicScript
