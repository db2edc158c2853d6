import BasicScript.Proofs.Evaluate.Run
import BasicScript.Proofs.Store.Upsert

/-! The ways to write to a dictionary: inserting, collecting pairs, evaluating a literal, and
assigning to an entry. Whatever they are mixed with, the dictionary is what has been written to it.
-/

set_option autoImplicit false

namespace BasicScript

open Relation Store

namespace Evaluator

/-- The entries of a literal have these keys and values, evaluated one after the other. Evaluating
an entry does not change the keys in front of it, which are `keys` and those of the entries
before. -/
inductive Gives (evaluate : Evaluator) (frame : Frame) :
    List Value → List (Node × Node) → Session → List (Value × Value) → Session → Prop where
  | done {keys : List Value} {s : Session} : Gives evaluate frame keys [] s [] s
  | entry {keys : List Value} {node : Node × Node} {rest : List (Node × Node)} {key value : Value}
      {pairs : List (Value × Value)} {s t u w : Session}
      (first : evaluate node.1 frame s = .ok key t) (second : evaluate node.2 frame t = .ok value u)
      (kept : ∀ other ∈ keys, s.world.store.Kept u.world.store other)
      (others : Gives evaluate frame (keys ++ [key]) rest u pairs w) :
      Gives evaluate frame keys (node :: rest) s ((key, value) :: pairs) w

namespace Gives

variable {evaluate : Evaluator} {frame : Frame} {keys : List Value} {nodes : List (Node × Node)}
  {s t : Session} {pairs writes : List (Value × Value)} {found : Entries}

theorem upserts (gives : evaluate.Gives frame keys nodes s pairs t) (same : keys = writes.map Prod.fst)
    (upserts : (∀ write ∈ writes, s.world.store.Regular write.1) → s.world.store.Upserts writes found) :
    ∃ table, evaluate.entries frame nodes found s = .ok table t ∧
      ((∀ write ∈ writes ++ pairs, t.world.store.Regular write.1) →
        t.world.store.Upserts (writes ++ pairs) table) := by
  induction gives generalizing writes found with
  | done => exact ⟨found, rfl, (List.append_nil writes).symm ▸ upserts⟩
  | @entry keys node rest key value pairs s u v t first second kept others ih =>
    subst same
    have kept : ∀ write ∈ writes, s.world.store.Kept v.world.store write.1 :=
      List.forall_mem_map.mp kept
    have inserted (regular : ∀ write ∈ writes ++ [(key, value)], v.world.store.Regular write.1) :
        v.world.store.Upserts (writes ++ [(key, value)]) (v.world.store.insert found key value) := by
      have ⟨earlier, last⟩ := List.forall_mem_append.mp regular
      have before := upserts fun write inside => (kept write inside).symm.regular (earlier write inside)
      exact (before.kept kept).insert earlier (last (key, value) (List.mem_singleton_self _)) value
    obtain ⟨table, run, done⟩ := ih (by simp) inserted
    refine ⟨table, ?_, List.append_cons writes _ pairs ▸ done⟩
    rw [Evaluator.entries, bind_of_ok first, bind_of_ok second]
    exact run

end Gives

end Evaluator

namespace Store

variable {s t : Store} {h : Handle} {table : Entries} {site : Site} {key value : Value}
  {writes pairs : List (Value × Value)}

/-- A dictionary has come about by these writes, and none of their keys has been changed by anything
but a write to the dictionary. -/
inductive Written : Store → Site → List (Value × Value) → Prop where
  | new (s : Store) : Written s (.loose #[]) []
  | insert {s : Store} {table : Entries} {writes : List (Value × Value)}
      (before : Written s (.loose table) writes) (key value : Value) :
      Written s (.loose (s.insert table key value)) (writes ++ [(key, value)])
  | collect (s : Store) (pairs : List (Value × Value)) : Written s (.loose (s.collect pairs)) pairs
  | literal {evaluate : Evaluator} {frame : Frame} {nodes : List (Node × Node)} {s t u : Session}
      {pairs : List (Value × Value)} {h : Handle} (gives : evaluate.Gives frame [] nodes s pairs t)
      (made : evaluate.dictionary frame nodes s = .ok (.dictionary h) u) :
      Written u.world.store (.stored h) pairs
  | store {s : Store} {table : Entries} {writes : List (Value × Value)}
      (before : Written s (.loose table) writes) :
      Written (s.addDictionary table).2 (.stored s.dictionaries.size) writes
  | insertStored {s : Store} {h : Handle} {writes : List (Value × Value)}
      (before : Written s (.stored h) writes) (key value : Value) :
      Written (s.setEntries h fun table => s.insert table key value) (.stored h)
        (writes ++ [(key, value)])
  | setItem {s t : Store} {h : Handle} {writes : List (Value × Value)} {key value : Value}
      (before : Written s (.stored h) writes)
      (done : Store.setItem (.dictionary h) key value s = .ok () t) :
      Written t (.stored h) (writes ++ [(key, value)])
  | meanwhile {s t : Store} {site : Site} {writes : List (Value × Value)}
      (before : Written s site writes) (grows : s.Extends t) (same : site.entries t = site.entries s)
      (kept : ∀ write ∈ writes, s.Kept t write.1) : Written t site writes

abbrev Site.Takes (site : Site) (s : Store) (writes : List (Value × Value)) : Prop :=
  ∀ write ∈ writes, s.Regular write.1 ∧ site.Apart s write.1

theorem Site.Takes.of_kept (takes : site.Takes t writes) (kept : ∀ write ∈ writes, s.Kept t write.1) :
    site.Takes s writes := fun write inside =>
  ⟨(kept write inside).symm.regular (takes write inside).1, .of_kept (kept write inside) (takes write inside).2⟩

/-- Entries that are stored are what has been written while they were loose. -/
theorem Upserts.stored (takes : (Site.stored s.dictionaries.size).Takes (s.addDictionary table).2 writes)
    (upserts : (∀ write ∈ writes, s.Regular write.1) → s.Upserts writes table) :
    (s.addDictionary table).2.Upserts writes ((s.addDictionary table).2.entries s.dictionaries.size) := by
  have kept : ∀ write ∈ writes, s.Kept (s.addDictionary table).2 write.1 :=
    fun write inside => kept_addDictionary (takes write inside).2
  rw [entries_addDictionary]
  exact (upserts fun write inside => (kept write inside).symm.regular (takes write inside).1).kept kept

theorem Upserts.setEntries {update : Entries → Entries} (there : h < s.dictionaries.size)
    (inserts : update (s.entries h) = s.insert (s.entries h) key value)
    (takes : (Site.stored h).Takes (s.setEntries h update) (writes ++ [(key, value)]))
    (upserts : (Site.stored h).Takes s writes → s.Upserts writes (s.entries h)) :
    (s.setEntries h update).Upserts (writes ++ [(key, value)]) ((s.setEntries h update).entries h) := by
  have kept : ∀ write ∈ writes ++ [(key, value)], s.Kept (s.setEntries h update) write.1 :=
    fun write inside => kept_setEntries update (takes write inside).2
  have before := takes.of_kept kept
  have ⟨earlier, last⟩ := List.forall_mem_append.mp before
  rw [entries_setEntries update there, inserts]
  refine Upserts.kept ?_ kept
  exact (upserts earlier).insert (fun write inside => (earlier write inside).1)
    (last (key, value) (List.mem_singleton_self _)).1 value

namespace Written

theorem there (history : Written s site writes) : site.There s := by
  induction history with
  | new | insert | collect => trivial
  | literal _ made =>
    obtain ⟨table, w, _, stored⟩ := ok_of_bind made
    cases stored
    exact lt_addDictionary table
  | store => exact lt_addDictionary _
  | insertStored _ _ _ ih => simpa [Site.There] using ih
  | setItem _ done ih =>
    rw [setItem_dictionary] at done
    cases done
    simpa [Site.There] using ih
  | @meanwhile _ _ site _ _ grows _ _ ih =>
    cases site with
    | loose _ => trivial
    | stored h => exact Nat.lt_of_lt_of_le ih grows.dictionaries

theorem upserts (history : Written s site writes) (takes : site.Takes s writes) :
    s.Upserts writes (site.entries s) := by
  induction history with
  | new s => exact .empty s
  | insert _ key value ih =>
    have ⟨earlier, last⟩ := List.forall_mem_append.mp takes
    exact (ih earlier).insert (fun write inside => (earlier write inside).1)
      (last (key, value) (List.mem_singleton_self _)).1 value
  | collect s pairs => exact upserts_collect fun pair inside => (takes pair inside).1
  | literal gives made =>
    obtain ⟨table, run, upserts⟩ := gives.upserts List.map_nil.symm fun _ => Upserts.empty _
    rw [Evaluator.dictionary, bind_of_ok run] at made
    cases made
    exact Upserts.stored takes upserts
  | store _ ih =>
    exact Upserts.stored takes fun regular => ih fun write inside => ⟨regular write inside, trivial⟩
  | insertStored before key value ih => exact Upserts.setEntries before.there rfl takes ih
  | setItem before done ih =>
    rw [setItem_dictionary] at done
    cases done
    exact Upserts.setEntries before.there rfl takes ih
  | meanwhile _ _ same kept ih => exact same ▸ (ih (takes.of_kept kept)).kept kept

end Written

/-- A dictionary is what has been written to it, in whichever ways. It has an entry for
each class of equal keys, in the order in which the classes were first written to, with
the first key of the class and the value that was written to it last. A lookup finds the
first class that the key, which may be any, is equal to; if the key is as those that have
been written, this is what was written to an equal key last. -/
theorem written_upserts (history : Written s site writes)
    (takes : ∀ write ∈ writes, s.Regular write.1 ∧ site.Apart s write.1) :
    let classes := s.firstKeys (writes.map Prod.fst)
    (classes.Pairwise (fun first second => s.equal first second = false) ∧
      ∀ write ∈ writes, ∃ first ∈ classes, s.equal first write.1 = true) ∧
    (site.entries s).toList.map Prod.fst = classes ∧
    (∀ entry ∈ site.entries s, s.lastValue? writes entry.1 = some entry.2) ∧
    (site.entries s).size = classes.length ∧
    (∀ key, s.position? (site.entries s) key = classes.findIdx? (s.equal · key) ∧
      s.valueAt? (site.entries s) key =
        (classes.find? (s.equal · key)).bind (s.lastValue? writes)) ∧
    ∀ key, s.Regular key → s.valueAt? (site.entries s) key = s.lastValue? writes key := by
  intro classes
  have regular : ∀ write ∈ writes, s.Regular write.1 := fun write inside => (takes write inside).1
  have upserts := history.upserts takes
  refine ⟨⟨firstKeys_pairwise _, fun write inside => ?_⟩, upserts.keys, upserts.values, upserts.size,
    fun key => ⟨upserts.position?_eq key, upserts.valueAt?_eq_bind key⟩,
    fun key => upserts.valueAt?_eq regular⟩
  exact exists_firstKey (List.forall_mem_map.mpr regular) (List.mem_map_of_mem inside)

/-- A key stays as it is written first when its class is written to under another key. -/
theorem written_upserts_boolean :
    let s : Store :=
      { dictionaries := #[#[(.number (.int 1), .string "c"), (.string "k", .string "b")]] }
    let writes : List (Value × Value) := [(.number (.int 1), .string "a"),
      (.string "k", .string "b"), (.boolean true, .string "c")]
    s.Written (.stored 0) writes ∧
      (∀ write ∈ writes, s.Regular write.1 ∧ (Site.stored 0).Apart s write.1) ∧
      s.valueAt? (s.entries 0) (.number (.int 1)) = some (.string "c") ∧
      s.position? (s.entries 0) (.boolean true) = some 0 := by
  intro s writes
  let started : Store :=
    { dictionaries := #[#[(.number (.int 1), .string "a"), (.string "k", .string "b")]] }
  let evaluate : Evaluator := evaluate default 1
  let nodes : List (Node × Node) := [(.number (.int 1) default, .string "a" default),
    (.string "k" default, .string "b" default)]
  have gives : evaluate.Gives default [] nodes {} _ {} :=
    .entry rfl rfl (List.forall_mem_nil _) (.entry rfl rfl (fun _ _ => .refl _ _) .done)
  have table : ({} : Store).insert (({} : Store).insert #[] (.number (.int 1)) (.string "a"))
      (.string "k") (.string "b") = started.entries 0 := by decide +kernel
  have made : evaluate.dictionary default nodes {} =
      .ok (.dictionary 0) { world := { store := started } } :=
    congrArg (fun table => EStateM.Result.ok (Value.dictionary 0)
      ({ world := { store := { dictionaries := #[table] } } } : Session)) table
  have changed : (started.setEntries 0 fun entries => Entries.put entries
      (started.position? (started.entries 0) (.boolean true)) (.boolean true) (.string "c")).dictionaries =
        s.dictionaries := by decide +kernel
  have done : Store.setItem (.dictionary 0) (.boolean true) (.string "c") started = .ok () s :=
    congrArg (fun dictionaries => EStateM.Result.ok () ({ dictionaries } : Store)) changed
  have history : s.Written (.stored 0) writes := .setItem (.literal gives made) done
  have takes : ∀ write ∈ writes, s.Regular write.1 ∧ (Site.stored 0).Apart s write.1 := by
    intro write inside
    have outer : write.1.isContainer = false ∧ write.1.isFloat = false ∧ write.1 ≠ .dictionary 0 := by
      revert write
      decide
    exact ⟨.of_simple outer.1 outer.2.1, fun reaches => outer.2.2 (eq_of_reaches_simple outer.1 reaches)⟩
  obtain ⟨_, _, _, _, found, last⟩ := written_upserts history takes
  refine ⟨history, takes, ?_, ?_⟩
  · exact (last _ (.of_simple rfl rfl)).trans (by decide +kernel)
  · exact (found _).1.trans (by decide +kernel)

/-- Two dictionaries, of which the first repeats a key, as when a list that is a key has been
changed. The first is equal to the second, but the second is not equal to the first, so a dictionary
that is written to under the second and then under the first has both of them as keys. -/
theorem written_repeated :
    let before : Store := {
      lists := #[#[.number (.int 1)], #[.number (.int 1)], #[.number (.int 2)]]
      dictionaries := #[#[(.list 0, .string "a"), (.list 1, .string "a")],
        #[(.list 0, .string "a"), (.list 2, .string "b")]] }
    let writes : List (Value × Value) := [(.dictionary 1, .string "x"), (.dictionary 0, .string "y")]
    let s := (before.addDictionary (before.collect writes)).2
    s.Written (.stored 2) writes ∧
      (∀ write ∈ writes, (∀ w, ReflTransGen s.Contains write.1 w →
        w.isFloat = false ∧ ¬TransGen s.Contains w w) ∧ (Site.stored 2).Apart s write.1) ∧
      s.entries 2 = writes.toArray ∧ s.equal (.dictionary 0) (.dictionary 1) = true := by
  intro before writes s
  have shallow : ∀ write ∈ writes, s.Shallow 3 write.1 := by decide +kernel
  have keys : ∀ write ∈ writes, write.1.isFloat = false ∧ write.1 ≠ .dictionary 2 := by decide
  have contents : ∀ v ∈ s.contents, v.isFloat = false ∧ v ≠ .dictionary 2 := by decide +kernel
  have inner : ∀ write ∈ writes, ∀ w, ReflTransGen s.Contains write.1 w →
      w.isFloat = false ∧ w ≠ .dictionary 2 := by
    intro write inside w reaches
    rcases ReflTransGen.cases_tail reaches with rfl | ⟨_, _, deeper⟩
    · exact keys write inside
    · exact contents w deeper.mem_contents
  refine ⟨.store (.collect before writes), fun write inside => ⟨fun w reaches => ⟨?_, ?_⟩, fun reaches => ?_⟩,
    by decide +kernel, by decide +kernel⟩
  · exact (inner write inside w reaches).1
  · exact ((shallow write inside).of_reaches reaches).acyclic
  · exact (inner write inside _ reaches).2 rfl

end Store

end BasicScript
