import BasicScript.Proofs.Store.Region

/-! Stores without functions of the host. The interpreter brings none along, and a program cannot
make one, so whatever goes wrong in a run on such a store is a fault of a running program. -/

set_option autoImplicit false

namespace BasicScript

def Store.Hostless (s : Store) : Prop :=
  ∀ b ∈ s.builtIns, b.action.Within (fun _ => True) (fun _ => False) True

namespace Store

variable {s : Store}

theorem hostless_empty : ({} : Store).Hostless := fun b => (absurd · (Array.not_mem_empty b))

theorem Hostless.append {t : Store} {more : List BuiltIn} (hostless : s.Hostless)
    (fits : ∀ b ∈ more, b.action.Within (fun _ => True) (fun _ => False) True)
    (grown : t.builtIns = s.builtIns ++ more.toArray) : t.Hostless := by
  intro b inside
  rw [grown] at inside
  rcases Array.mem_append.mp inside with inside | inside
  · exact hostless b inside
  · exact fits b (List.mem_toArray.mp inside)

theorem Hostless.addRoot (hostless : s.Hostless) : s.addRoot.2.Hostless :=
  hostless.append (BuiltIn.globals_within _ _ _) rfl

end Store

def Discipline.hostless : Discipline where
  holds := Store.Hostless
  owns _ _ := True
  sees _ _ := True
  runs _ _ := True
  trusts _ := False
  raises := Fault.IsRuntime
  bodies _ := True
  mutates := True
  allows _ := True
  owns_mono _ _ := trivial
  runs_mono _ _ := trivial
  sees_of_runs _ := trivial
  owns_plain _ := trivial
  owns_variable _ _ _ := trivial
  owns_export _ _ _ := trivial
  owns_item _ _ _ := trivial
  owns_entry _ _ _ := ⟨trivial, trivial⟩
  owns_member _ _ _ := trivial
  sees_closure _ _ := trivial
  action_within {s h} hostless _ := by
    cases found : s.builtIns[h]? with
    | none => trivial
    | some b => exact hostless b (Array.mem_of_getElem? found)
  owns_answer _ _ _ _ := trivial
  raises_runtime := id
  raises_refusal trusted := trusted.elim
  root_added hostless := ⟨hostless.addRoot, trivial⟩
  scope_added hostless _ := ⟨hostless, trivial⟩
  list_added hostless _ := ⟨hostless, trivial⟩
  dictionary_added hostless _ _ := ⟨hostless, trivial⟩
  function_added hostless _ _ := ⟨hostless, trivial⟩
  builtIn_added {s b} hostless within := by
    have fits : ∀ other ∈ [b], other.action.Within (fun _ => True) (fun _ => False) True :=
      List.forall_mem_singleton.mpr within
    exact ⟨hostless.append fits Array.push_eq_append, trivial⟩
  module_added hostless _ := ⟨hostless, trivial⟩
  items_changed hostless _ _ _ _ := hostless
  entries_changed hostless _ _ _ _ := hostless
  slot_added hostless _ _ _ _ := hostless
  slot_changed hostless _ _ _ _ := hostless

instance : Discipline.hostless.Free := ⟨fun _ => trivial, trivial⟩

instance : Discipline.hostless.Lax := ⟨fun _ => trivial⟩

theorem Discipline.hostless_admits : hostless.Admits Registry.standard :=
  fun m known row inside action is _ => Registry.standard_within _ _ _ m known row inside action is

end BasicScript
