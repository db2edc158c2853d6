import BasicScript.Proofs.Store.Call

/-! Native tables keep every discipline: what is converted from a table is made anew, and its
functions hold what the table says they hold. -/

set_option autoImplicit false

namespace BasicScript.Discipline

variable {D : Discipline} {s : Store}

def Admits (D : Discipline) (natives : Registry) : Prop :=
  ∀ m ∈ natives, ∀ row ∈ m.rows, ∀ action, row.value = .function action →
    ∀ s, action.Within (D.owns s) D.trusts D.mutates

/-- Writing to entries leaves only what was in them and what was written. -/
theorem owns_of_insert {entries : Entries} {key value : Value}
    (owned : ∀ entry ∈ entries, D.owns s entry.1 ∧ D.owns s entry.2)
    (ownsKey : D.owns s key) (ownsValue : D.owns s value) :
    ∀ entry ∈ s.insert entries key value, D.owns s entry.1 ∧ D.owns s entry.2 :=
  owns_of_put owned ownsKey ownsValue

class Converts (D : Discipline) : Prop where
  data {s : Store} {row : String} (v : NativeValue) : D.holds s → D.SoundAct s D.owns (v.data row s)

mutual

theorem data [D.Lax] {row : String} : ∀ {s : Store} (v : NativeValue), D.holds s →
    D.SoundAct s D.owns (v.data row s)
  | _, .number _, holds | _, .text _, holds | _, .boolean _, holds | _, .null, holds => by
    rw [NativeValue.data]
    exact .value holds (.refl _) (D.owns_plain rfl)
  | _, .list items, holds => by
    rw [NativeValue.data]
    apply Sound.bind (dataItems items holds ownsAll_empty)
    intro values t holds _ owned
    exact newList holds owned
  | _, .map entries, holds => by
    rw [NativeValue.data]
    apply Sound.bind (dataEntries entries holds ownsEntries_empty)
    intro values t holds _ owned
    exact newDictionary holds owned
  | _, .function _, holds => by
    rw [NativeValue.data]
    exact .fault holds (.refl _) (D.raises_runtime rfl)

theorem dataItems [D.Lax] {row : String} : ∀ {s : Store} (items : List NativeValue) {found : Array Value},
    D.holds s → (∀ v ∈ found, D.owns s v) →
      D.SoundAct s (fun t values => ∀ v ∈ values, D.owns t v) (NativeValue.dataItems row items found s)
  | _, [], _, holds, owned => by
    rw [NativeValue.dataItems]
    exact .value holds (.refl _) owned
  | _, item :: rest, found, holds, owned => by
    rw [NativeValue.dataItems]
    apply Sound.bind (data item holds)
    intro value t holds grows ownsValue
    refine dataItems rest holds fun v inside => ?_
    rcases Array.mem_push.mp inside with inside | rfl
    · exact D.owns_mono grows (owned v inside)
    · exact ownsValue

theorem dataEntries [D.Lax] {row : String} : ∀ {s : Store} (entries : List (NativeValue × NativeValue))
    {found : Entries}, D.holds s → (∀ entry ∈ found, D.owns s entry.1 ∧ D.owns s entry.2) →
      D.SoundAct s (fun t values => ∀ entry ∈ values, D.owns t entry.1 ∧ D.owns t entry.2)
        (NativeValue.dataEntries row entries found s)
  | _, [], _, holds, owned => by
    rw [NativeValue.dataEntries]
    exact .value holds (.refl _) owned
  | _, (key, value) :: rest, found, holds, owned => by
    rw [NativeValue.dataEntries]
    apply Sound.bind (data key holds)
    intro k t holds grows ownsKey
    apply Sound.bind (data value holds)
    intro v u holds grows' ownsValue
    apply Sound.bind (P := fun u' entries => u' = u ∧ entries = u.insert found k v)
      (read holds ⟨rfl, rfl⟩)
    intro entries u' holds _ same
    obtain ⟨rfl, rfl⟩ := same
    refine dataEntries rest holds (owns_of_insert (fun entry inside => ?_)
      (D.owns_mono grows' ownsKey) ownsValue)
    have before := owned entry inside
    exact ⟨D.owns_mono (grows.trans grows') before.1, D.owns_mono (grows.trans grows') before.2⟩

end

instance [D.Lax] : D.Converts := ⟨data⟩

section Tables

variable [D.Converts]

theorem convert {row : NativeRow} (holds : D.holds s)
    (within : ∀ action, row.value = .function action →
      action.Within (D.owns s) D.trusts D.mutates) :
    D.SoundAct s D.owns (NativeModule.convert row s) := by
  unfold NativeModule.convert
  cases found : row.value with
  | function action => exact newBuiltIn holds (within action found)
  | number _ | text _ | boolean _ | null | list _ | map _ => exact Converts.data _ holds

abbrev ownsExports (D : Discipline) (s : Store) (exports : List Export) : Prop :=
  ∀ e ∈ exports, D.owns s e.value

theorem exportsFrom : ∀ {s : Store} {rows : List NativeRow}, D.holds s →
    (∀ row ∈ rows, ∀ action, row.value = .function action →
      ∀ s, action.Within (D.owns s) D.trusts D.mutates) →
    D.SoundAct s D.ownsExports (NativeModule.exportsFrom rows s)
  | _, [], holds, _ => .value holds (.refl _) (by simp [ownsExports])
  | _, row :: rest, holds, within => by
    apply Sound.bind (convert holds fun action found => within row (by simp) action found _)
    intro value t holds _ ownsValue
    apply Sound.bind (exportsFrom holds fun row inside => within row (by simp [inside]))
    intro exports u holds grows owned
    refine .pure holds fun e inside => ?_
    rcases List.mem_cons.mp inside with rfl | inside
    · exact D.owns_mono grows ownsValue
    · exact owned e inside

theorem exports {m : NativeModule} {natives : Registry} (holds : D.holds s)
    (admits : D.Admits natives) (known : m ∈ natives) :
    D.SoundAct s D.ownsExports (m.exports s) :=
  exportsFrom holds (admits m known)

end Tables

theorem admits_any (natives : Registry) : any.Admits natives :=
  fun _ _ _ _ action _ _ => within_anything action

end BasicScript.Discipline
