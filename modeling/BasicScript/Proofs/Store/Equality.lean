import BasicScript.Proofs.Store.Comparison
import Mathlib.Data.Fintype.Card
import Mathlib.Data.Set.Finite.List
import Mathlib.Tactic.IntervalCases

/-! Equality as a relation. On values without doubles that do not contain themselves and whose
dictionaries repeat no key it is an equivalence, and two dictionaries are equal if and only if their
entries can be paired off. With doubles it is neither: a large integer equals every double that it
rounds to. -/

set_option autoImplicit false

namespace BasicScript

namespace Value

def isFloat : Value → Bool
  | .number (.float _) => true
  | _ => false

def isContainer : Value → Bool
  | .list _ | .dictionary _ => true
  | _ => false

/-- The number that a boolean counts as. Any other value is itself. -/
def canonical : Value → Value
  | .boolean b => .number (.int (if b then 1 else 0))
  | v => v

theorem isContainer_canonical (v : Value) : v.canonical.isContainer = v.isContainer := by
  cases v <;> rfl

end Value

namespace Store

open Relation

variable {s : Store} {a b c v w : Value}

def DistinctKeys (s : Store) (entries : Entries) : Prop :=
  entries.toList.Pairwise fun first second => s.equal first.1 second.1 = false

instance (s : Store) (entries : Entries) : Decidable (s.DistinctKeys entries) :=
  inferInstanceAs (Decidable (List.Pairwise _ _))

/-- Nothing inside of the value is a double or contains itself, and no dictionary repeats a key. -/
structure Regular (s : Store) (v : Value) : Prop where
  whole {w : Value} : ReflTransGen s.Contains v w → w.isFloat = false
  acyclic {w : Value} : ReflTransGen s.Contains v w → ¬TransGen s.Contains w w
  distinct {h : Handle} : ReflTransGen s.Contains v (.dictionary h) → s.DistinctKeys (s.entries h)

theorem Regular.inner (regular : s.Regular v) (inside : s.Contains v w) : s.Regular w where
  whole reaches := regular.whole (.head inside reaches)
  acyclic reaches := regular.acyclic (.head inside reaches)
  distinct reaches := regular.distinct (.head inside reaches)

/-- A value made of regular ones is regular: it stands in none of them, as they would then contain
themselves. -/
theorem Regular.of_inner (whole : v.isFloat = false) (inner : ∀ w, s.Contains v w → s.Regular w)
    (distinct : ∀ h, v = .dictionary h → s.DistinctKeys (s.entries h)) : s.Regular v where
  whole reaches := by
    rcases ReflTransGen.cases_head reaches with rfl | ⟨w, inside, reaches⟩
    · exact whole
    · exact (inner w inside).whole reaches
  acyclic reaches around := by
    rcases ReflTransGen.cases_head reaches with rfl | ⟨w, inside, reaches⟩
    · obtain ⟨w, inside, back⟩ := TransGen.head'_iff.mp around
      exact (inner w inside).acyclic .refl (.tail' back inside)
    · exact (inner w inside).acyclic reaches around
  distinct {h} reaches := by
    rcases ReflTransGen.cases_head reaches with same | ⟨w, inside, reaches⟩
    · exact distinct h same
    · exact (inner w inside).distinct reaches

theorem Contains.isContainer (inside : s.Contains v w) : v.isContainer = true := by
  cases v with
  | list _ | dictionary _ => rfl
  | number _ | string _ | boolean _ | null | function _ | builtIn _ | module _ => exact inside.elim

theorem eq_of_reaches_simple (outer : v.isContainer = false) (reaches : ReflTransGen s.Contains v w) :
    v = w := by
  rcases ReflTransGen.cases_head reaches with same | ⟨_, inside, _⟩
  · exact same
  · exact absurd inside.isContainer (Bool.eq_false_iff.mp outer)

theorem Regular.of_simple (outer : v.isContainer = false) (whole : v.isFloat = false) :
    s.Regular v := by
  refine .of_inner whole (fun w inside => ?_) (fun h same => ?_)
  · exact absurd inside.isContainer (Bool.eq_false_iff.mp outer)
  · subst same
    cases outer

/-! ### Height -/

/-- Containers stand in each other less than `n` deep, with the value as the outermost one. -/
def Shallow (s : Store) : Nat → Value → Prop
  | 0, _ => False
  | n + 1, v => ∀ w, s.Contains v w → s.Shallow n w

theorem Shallow.mono {m n : Nat} (less : m ≤ n) (shallow : s.Shallow m v) : s.Shallow n v := by
  induction m generalizing n v with
  | zero => exact shallow.elim
  | succ m ih =>
    obtain ⟨n, rfl⟩ : ∃ k, n = k + 1 := ⟨n - 1, by omega⟩
    exact fun w inside => ih (Nat.le_of_succ_le_succ less) (shallow w inside)

theorem Shallow.of_reaches {n : Nat} (shallow : s.Shallow n v) (reaches : ReflTransGen s.Contains v w) :
    s.Shallow n w := by
  induction reaches with
  | refl => exact shallow
  | tail _ inside ih =>
    cases n with
    | zero => exact ih.elim
    | succ n => exact (ih _ inside).mono n.le_succ

/-- What is of finite height does not contain itself. -/
theorem Shallow.acyclic {n : Nat} (shallow : s.Shallow n v) : ¬TransGen s.Contains v v := by
  induction n generalizing v with
  | zero => exact shallow.elim
  | succ n ih =>
    intro around
    obtain ⟨w, inside, back⟩ := TransGen.head'_iff.mp around
    exact ih (shallow w inside) (.tail' back inside)

instance Shallow.decidable (s : Store) : ∀ n v, Decidable (s.Shallow n v)
  | 0, _ => .isFalse id
  | n + 1, v =>
    have := Shallow.decidable s n
    decidable_of_iff (∀ w ∈ s.inner v, s.Shallow n w)
      (forall_congr' fun _ => imp_congr_left contains_iff.symm)

def contents (s : Store) : List Value :=
  s.lists.toList.flatMap Array.toList ++
    s.dictionaries.toList.flatMap fun entries => entries.toList.flatMap fun entry => [entry.1, entry.2]

theorem Contains.mem_contents (inside : s.Contains w v) : v ∈ s.contents := by
  cases w with
  | list h =>
    simp only [Contains, items] at inside
    cases found : s.lists[h]? with
    | none => simp [found] at inside
    | some items =>
      rw [found] at inside
      refine List.mem_append_left _ (List.mem_flatMap.mpr ⟨items, ?_, Array.mem_toList_iff.mpr inside⟩)
      exact Array.mem_toList_iff.mpr (Array.mem_of_getElem? found)
  | dictionary h =>
    obtain ⟨entry, here, same⟩ := inside
    simp only [entries] at here
    cases found : s.dictionaries[h]? with
    | none => simp [found] at here
    | some entries =>
      rw [found] at here
      refine List.mem_append_right _ (List.mem_flatMap.mpr ⟨entries, ?_, ?_⟩)
      · exact Array.mem_toList_iff.mpr (Array.mem_of_getElem? found)
      · exact List.mem_flatMap.mpr ⟨entry, Array.mem_toList_iff.mpr here, by simpa using same⟩
  | number _ | string _ | boolean _ | null | function _ | builtIn _ | module _ => exact inside.elim

/-- If each value in a container is shallow, they all are so at a common depth. -/
theorem exists_shallow_inner (each : ∀ w, s.Contains v w → ∃ n, s.Shallow n w) :
    ∃ n, s.Shallow n v := by
  have each (w : Value) : ∃ n, s.Contains v w → s.Shallow n w := by
    by_cases inside : s.Contains v w
    · exact (each w inside).imp fun n shallow _ => shallow
    · exact ⟨0, fun there => absurd there inside⟩
  choose height shallow using each
  refine ⟨s.contents.toFinset.sup height + 1, fun w inside => ?_⟩
  exact (shallow w inside).mono (Finset.le_sup (List.mem_toFinset.mpr inside.mem_contents))

/-- What does not contain itself is of finite height: there are finitely many values inside of it,
so going inward ends. -/
theorem Regular.exists_shallow (regular : s.Regular v) : ∃ n, s.Shallow n v := by
  let Inner := {w : Value // ReflTransGen s.Contains v w}
  have finite : Finite Inner := by
    refine Set.Finite.subset (List.finite_toSet (v :: s.contents)) fun w reaches => ?_
    rcases ReflTransGen.cases_tail reaches with rfl | ⟨u, _, inside⟩
    · exact List.mem_cons_self
    · exact List.mem_cons_of_mem v inside.mem_contents
  let Below (x y : Inner) : Prop := TransGen s.Contains y.1 x.1
  have : IsTrans Inner Below := ⟨fun _ _ _ first second => second.trans first⟩
  have : Std.Irrefl Below := ⟨fun x => regular.acyclic x.2⟩
  have below : WellFounded Below := Finite.wellFounded_of_trans_of_irrefl Below
  have all (x : Inner) : ∃ n, s.Shallow n x.1 := by
    induction x using below.induction with
    | _ x ih =>
      exact exists_shallow_inner fun w inside => ih ⟨w, x.2.tail inside⟩ (.single inside)
  exact all ⟨v, .refl⟩

/-! ### What equality says of shallow values -/

section Step

variable (same : Value → Value → Bool) (g h : Handle)

theorem equalBy?_list : s.equalBy? (fun x y => some (same x y)) (.list g) (.list h) =
    some (if g = h then true
      else if (s.items g).size ≠ (s.items h).size then false
      else ((s.items g).toList.zip (s.items h).toList).all fun pair => same pair.1 pair.2) := by
  have all : ((s.items g).toList.zip (s.items h).toList).allM
      (fun pair => some (same pair.1 pair.2)) = some (List.all _ _) := List.allM_pure
  simp only [equalBy?, all]
  split
  · rfl
  · split <;> rfl

theorem equalBy?_dictionary : s.equalBy? (fun x y => some (same x y)) (.dictionary g) (.dictionary h) =
    some (if g = h then true
      else if (s.entries g).size ≠ (s.entries h).size then false
      else (s.entries g).toList.all fun entry =>
        ((s.entries h).toList.find? fun other => same other.1 entry.1).any fun other =>
          same entry.2 other.2) := by
  have find (entry : Value × Value) : (s.entries h).toList.findM?
      (fun other => some (same other.1 entry.1)) = some (List.find? _ _) := List.findM?_pure _ _
  have all : (s.entries g).toList.allM (fun entry => some
      (((s.entries h).toList.find? fun other => same other.1 entry.1).any fun other =>
        same entry.2 other.2)) = some (List.all _ _) := List.allM_pure
  simp only [equalBy?, find]
  split
  · rfl
  · split
    · rfl
    · rw [← all]
      congr 1
      funext entry
      cases (s.entries h).toList.find? fun other => same other.1 entry.1 <;> rfl

/-- If all comparisons inside have an answer, the comparison has one. -/
theorem exists_equalBy? : ∃ r, s.equalBy? (fun x y => some (same x y)) a b = some r := by
  cases a <;> cases b <;> try exact ⟨_, rfl⟩
  case list.list g h => exact ⟨_, equalBy?_list same g h⟩
  case dictionary.dictionary g h => exact ⟨_, equalBy?_dictionary same g h⟩

end Step

/-- A shallow value is compared by comparing what stands in it. -/
theorem equalBy?_of_shallow {n : Nat} (shallow : s.Shallow n a ∨ s.Shallow n b) :
    s.equalBy? (fun x y => some (s.equal x y)) a b = some (s.equal a b) ∧
      s.equalWithin? n a b = some (s.equal a b) := by
  induction n generalizing a b with
  | zero => exact (shallow.elim id id).elim
  | succ n ih =>
    have step : s.equalWithin? (n + 1) a b = s.equalBy? (fun x y => some (s.equal x y)) a b := by
      refine equalBy?_congr (.refl s a) (.refl s b) fun x y here there => ?_
      rcases shallow with shallow | shallow
      · exact ⟨(ih (.inl (shallow x here))).2, (ih (.inr (shallow x here))).2⟩
      · exact ⟨(ih (.inr (shallow y there))).2, (ih (.inl (shallow y there))).2⟩
    obtain ⟨r, answer⟩ := exists_equalBy? (s := s) (a := a) (b := b) s.equal
    rw [answer] at step
    rw [answer, step, equal_of_equalWithin? step]
    exact ⟨rfl, rfl⟩

theorem equal_list_iff {n : Nat} {g h : Handle} (shallow : s.Shallow n (.list g)) :
    s.equal (.list g) (.list h) = true ↔ g = h ∨ (s.items g).size = (s.items h).size ∧
      ∀ (i : Nat) x y, (s.items g)[i]? = some x → (s.items h)[i]? = some y → s.equal x y = true := by
  have step := (equalBy?_of_shallow (b := .list h) (.inl shallow)).1
  rw [equalBy?_list] at step
  rw [← Option.some.inj step]
  split
  case isTrue same => simp [same]
  case isFalse apart =>
    split
    case isTrue longer => simp [apart, longer]
    case isFalse size =>
      simp only [apart, false_or, not_not.mp size, true_and, List.all_eq_true]
      constructor
      · intro all i x y left right
        refine all (x, y) (List.mem_iff_getElem?.mpr ⟨i, List.getElem?_zip_eq_some.mpr ?_⟩)
        simp only [Array.getElem?_toList]
        exact ⟨left, right⟩
      · intro all pair inside
        obtain ⟨i, found⟩ := List.mem_iff_getElem?.mp inside
        have found := List.getElem?_zip_eq_some.mp found
        simp only [Array.getElem?_toList] at found
        exact all i _ _ found.1 found.2

theorem equal_dictionary_iff {n : Nat} {g h : Handle} (shallow : s.Shallow n (.dictionary g)) :
    s.equal (.dictionary g) (.dictionary h) = true ↔ g = h ∨
      (s.entries g).size = (s.entries h).size ∧ ∀ entry ∈ s.entries g, ∃ other,
        (s.entries h).toList.find? (fun other => s.equal other.1 entry.1) = some other ∧
          s.equal entry.2 other.2 = true := by
  have step := (equalBy?_of_shallow (b := .dictionary h) (.inl shallow)).1
  rw [equalBy?_dictionary] at step
  rw [← Option.some.inj step]
  split
  case isTrue same => simp [same]
  case isFalse apart =>
    split
    case isTrue longer => simp [apart, longer]
    case isFalse size =>
      simp only [apart, false_or, not_not.mp size, true_and, List.all_eq_true,
        Option.any_eq_true, Array.mem_toList_iff]

/-! ### Corresponding values -/

structure EquivalenceOn (s : Store) (kind : Value → Prop) : Prop where
  refl {a : Value} : kind a → s.equal a a = true
  symm {a b : Value} : kind a → kind b → s.equal a b = true → s.equal b a = true
  trans {a b c : Value} : kind a → kind b → kind c → s.equal a b = true → s.equal b c = true →
    s.equal a c = true

/-- The entries of two dictionaries are paired off, equal keys with equal values. -/
def Paired (s : Store) (first second : Entries) : Prop :=
  ∃ pairing : Fin first.size ≃ Fin second.size, ∀ i,
    s.equal first[i].1 second[pairing i].1 = true ∧ s.equal first[i].2 second[pairing i].2 = true

/-- Equal values, told by their kinds. -/
inductive Matches (s : Store) : Value → Value → Prop
  | simple {a b : Value} (outer : a.isContainer = false) (same : a.canonical = b.canonical) :
    Matches s a b
  | list {g h : Handle} (size : (s.items g).size = (s.items h).size)
      (fits : ∀ (i : Nat) x y, (s.items g)[i]? = some x → (s.items h)[i]? = some y → s.equal x y = true) :
    Matches s (.list g) (.list h)
  | dictionary {g h : Handle} (paired : s.Paired (s.entries g) (s.entries h)) :
    Matches s (.dictionary g) (.dictionary h)

section Kinds

variable {kind : Value → Prop} {first second third : Entries}

abbrev Entries.Of (kind : Value → Prop) (entries : Entries) : Prop :=
  ∀ entry ∈ entries, kind entry.1 ∧ kind entry.2

namespace EquivalenceOn

variable (law : s.EquivalenceOn kind)

include law

theorem paired_refl (of : Entries.Of kind first) : s.Paired first first := by
  refine ⟨.refl _, fun i => ?_⟩
  have inside := of first[i] (Array.getElem_mem i.2)
  exact ⟨law.refl inside.1, law.refl inside.2⟩

theorem paired_symm (of : Entries.Of kind first) (of' : Entries.Of kind second)
    (paired : s.Paired first second) : s.Paired second first := by
  obtain ⟨pairing, fits⟩ := paired
  refine ⟨pairing.symm, fun i => ?_⟩
  have fits := fits (pairing.symm i)
  simp only [Equiv.apply_symm_apply] at fits
  have left := of _ (Array.getElem_mem (pairing.symm i).2)
  have right := of' _ (Array.getElem_mem i.2)
  exact ⟨law.symm left.1 right.1 fits.1, law.symm left.2 right.2 fits.2⟩

theorem paired_trans (of : Entries.Of kind first) (of' : Entries.Of kind second)
    (of'' : Entries.Of kind third) (paired : s.Paired first second)
    (paired' : s.Paired second third) : s.Paired first third := by
  obtain ⟨pairing, fits⟩ := paired
  obtain ⟨pairing', fits'⟩ := paired'
  refine ⟨pairing.trans pairing', fun i => ?_⟩
  have left := of _ (Array.getElem_mem i.2)
  have middle := of' _ (Array.getElem_mem (pairing i).2)
  have right := of'' _ (Array.getElem_mem (pairing' (pairing i)).2)
  exact ⟨law.trans left.1 middle.1 right.1 (fits i).1 (fits' (pairing i)).1,
    law.trans left.2 middle.2 right.2 (fits i).2 (fits' (pairing i)).2⟩

/-- Where no key is repeated, equal keys stand at one place. -/
theorem place_eq (of : ∀ entry ∈ first, kind entry.1) (distinct : s.DistinctKeys first)
    {i j : Fin first.size} (same : s.equal first[i].1 first[j].1 = true) : i = j := by
  have later := List.pairwise_iff_getElem.mp distinct
  rcases Nat.lt_trichotomy i.1 j.1 with before | here | behind
  · have apart := later i j (by simp) (by simp) before
    simp only [Array.getElem_toList] at apart
    exact absurd same (Bool.eq_false_iff.mp apart)
  · exact Fin.ext here
  · have apart := later j i (by simp) (by simp) behind
    simp only [Array.getElem_toList] at apart
    have back := law.symm (of _ (Array.getElem_mem i.2)) (of _ (Array.getElem_mem j.2)) same
    exact absurd back (Bool.eq_false_iff.mp apart)

/-- Each entry finds a partner, and no two find the same, since no key is repeated. -/
theorem paired_of_found (of : Entries.Of kind first) (of' : Entries.Of kind second)
    (distinct : s.DistinctKeys first) (size : first.size = second.size)
    (found : ∀ entry ∈ first, ∃ other ∈ second,
      s.equal other.1 entry.1 = true ∧ s.equal entry.2 other.2 = true) : s.Paired first second := by
  have each (i : Fin first.size) : ∃ j : Fin second.size,
      s.equal first[i].1 second[j].1 = true ∧ s.equal first[i].2 second[j].2 = true := by
    obtain ⟨other, there, key, value⟩ := found first[i] (Array.getElem_mem i.2)
    obtain ⟨j, bound, rfl⟩ := Array.mem_iff_getElem.mp there
    have left := of _ (Array.getElem_mem i.2)
    exact ⟨⟨j, bound⟩, law.symm (of' _ there).1 left.1 key, value⟩
  choose partner fits using each
  have injective : Function.Injective partner := by
    intro i k same
    have left := of _ (Array.getElem_mem i.2)
    have left' := of _ (Array.getElem_mem k.2)
    have right := of' _ (Array.getElem_mem (partner k).2)
    have forth := (fits i).1
    rw [same] at forth
    exact law.place_eq (fun entry inside => (of entry inside).1) distinct
      (law.trans left.1 right.1 left'.1 forth (law.symm left'.1 right.1 (fits k).1))
  have bijective : Function.Bijective partner := by
    rw [Fintype.bijective_iff_injective_and_card, Fintype.card_fin, Fintype.card_fin]
    exact ⟨injective, size⟩
  exact ⟨.ofBijective partner bijective, fits⟩

/-- The first entry whose key is equal to that of an entry is its partner, as no other could be. -/
theorem found_of_paired (of : Entries.Of kind first) (of' : Entries.Of kind second)
    (distinct : s.DistinctKeys second) (paired : s.Paired first second) :
    ∀ entry ∈ first, ∃ other,
      second.toList.find? (fun other => s.equal other.1 entry.1) = some other ∧
        s.equal entry.2 other.2 = true := by
  obtain ⟨pairing, fits⟩ := paired
  intro entry inside
  obtain ⟨i, bound, rfl⟩ := Array.mem_iff_getElem.mp inside
  have left := of _ inside
  have right := of' _ (Array.getElem_mem (pairing ⟨i, bound⟩).2)
  have fit := fits ⟨i, bound⟩
  cases found : second.toList.find? (fun other => s.equal other.1 first[i].1) with
  | none =>
    have missed := List.find?_eq_none.mp found second[pairing ⟨i, bound⟩]
      (Array.mem_toList_iff.mpr (Array.getElem_mem (pairing ⟨i, bound⟩).2))
    exact absurd (law.symm left.1 right.1 fit.1) missed
  | some other =>
    refine ⟨other, rfl, ?_⟩
    have there := Array.mem_toList_iff.mp (List.mem_of_find?_eq_some found)
    have key : s.equal other.1 first[i].1 = true := (List.find?_some found :)
    obtain ⟨j, bound', rfl⟩ := Array.mem_iff_getElem.mp there
    have place : (⟨j, bound'⟩ : Fin second.size) = pairing ⟨i, bound⟩ :=
      law.place_eq (fun entry inside => (of' entry inside).1) distinct
        (law.trans (of' _ there).1 left.1 right.1 key fit.1)
    have here : j = (pairing ⟨i, bound⟩).1 := congrArg Fin.val place
    subst here
    exact fit.2

end EquivalenceOn

end Kinds

/-- A value that is no container is equal to what counts as the same. -/
theorem equal_simple_iff (left : a.isFloat = false) (right : b.isFloat = false)
    (outer : a.isContainer = false) : s.equal a b = true ↔ a.canonical = b.canonical := by
  cases a with
  | list h | dictionary h => cases outer
  | number m =>
    cases m with
    | float f => cases left
    | int m =>
      cases b with
      | number n =>
        cases n with
        | float f => cases right
        | int n => rw [equal_of_equalWithin? (n := 0) rfl]; simp [Value.canonical, Number.equal]
      | _ => rw [equal_of_equalWithin? (n := 0) rfl]; simp [Value.canonical, Number.equal]
  | boolean p =>
    -- a boolean is compared with an integer as the number that it counts as
    cases b with
    | number n =>
      cases n with
      | float f => cases right
      | int n =>
        rw [equal_of_equalWithin? (n := 0) rfl]
        simp only [Value.canonical, Number.equal, beq_iff_eq, Value.number.injEq, Number.int.injEq]
        exact eq_comm
    | boolean q =>
      rw [equal_of_equalWithin? (n := 0) rfl]
      cases p <;> cases q <;> decide
    | _ => rw [equal_of_equalWithin? (n := 0) rfl]; simp [Value.canonical]
  | _ => cases b <;> rw [equal_of_equalWithin? (n := 0) rfl] <;> simp [Value.canonical]

theorem equal_of_type_ne (outer : a.isContainer = true) (apart : a.type ≠ b.type) :
    s.equal a b = false := by
  cases a with
  | list _ | dictionary _ =>
    cases b <;> first | exact absurd rfl apart | exact equal_of_equalWithin? (n := 0) rfl
  | _ => cases outer

theorem Matches.type_eq (matched : s.Matches a b) (outer : a.isContainer = true) :
    a.type = b.type := by
  cases matched with
  | simple simple _ =>
    rw [outer] at simple
    cases simple
  | list _ _ | dictionary _ => rfl

/-- The values of which the law is shown, one level after the other. -/
def RegularWithin (s : Store) (n : Nat) (v : Value) : Prop := s.Regular v ∧ s.Shallow n v

namespace RegularWithin

variable {n : Nat}

theorem inner (within : s.RegularWithin (n + 1) v) (inside : s.Contains v w) :
    s.RegularWithin n w :=
  ⟨within.1.inner inside, within.2 w inside⟩

theorem item {h : Handle} (within : s.RegularWithin (n + 1) (.list h)) {i : Nat}
    (found : (s.items h)[i]? = some v) : s.RegularWithin n v :=
  within.inner (Array.mem_of_getElem? found)

theorem entries {h : Handle} (within : s.RegularWithin (n + 1) (.dictionary h)) :
    Entries.Of (s.RegularWithin n) (s.entries h) := fun entry inside =>
  ⟨within.inner ⟨entry, inside, .inl rfl⟩, within.inner ⟨entry, inside, .inr rfl⟩⟩

theorem equal_dictionary_iff {g h : Handle} (law : s.EquivalenceOn (s.RegularWithin n))
    (left : s.RegularWithin (n + 1) (.dictionary g))
    (right : s.RegularWithin (n + 1) (.dictionary h)) :
    s.equal (.dictionary g) (.dictionary h) = true ↔ s.Paired (s.entries g) (s.entries h) := by
  rw [Store.equal_dictionary_iff left.2]
  constructor
  · rintro (rfl | ⟨size, found⟩)
    · exact law.paired_refl left.entries
    · refine law.paired_of_found left.entries right.entries (left.1.distinct .refl) size ?_
      intro entry inside
      obtain ⟨other, found, value⟩ := found entry inside
      exact ⟨other, Array.mem_toList_iff.mp (List.mem_of_find?_eq_some found),
        (List.find?_some found :), value⟩
  · intro paired
    have size : (s.entries g).size = (s.entries h).size := by
      simpa using Fintype.card_congr paired.choose
    exact .inr ⟨size, law.found_of_paired left.entries right.entries (right.1.distinct .refl) paired⟩

theorem equal_list_iff {g h : Handle} (law : s.EquivalenceOn (s.RegularWithin n))
    (left : s.RegularWithin (n + 1) (.list g)) :
    s.equal (.list g) (.list h) = true ↔ (s.items g).size = (s.items h).size ∧
      ∀ (i : Nat) x y, (s.items g)[i]? = some x → (s.items h)[i]? = some y →
        s.equal x y = true := by
  rw [Store.equal_list_iff left.2]
  refine or_iff_right_of_imp ?_
  rintro rfl
  refine ⟨rfl, fun i x y one other => ?_⟩
  obtain rfl := Option.some.inj (one.symm.trans other)
  exact law.refl (left.item one)

/-- Equality looks at the kinds of the values and at equality one level below. -/
theorem equal_iff_matches (law : s.EquivalenceOn (s.RegularWithin n))
    (left : s.RegularWithin (n + 1) a) (right : s.RegularWithin (n + 1) b) :
    s.equal a b = true ↔ s.Matches a b := by
  -- by the kind of the first value: only two containers of one type are gone into
  cases outer : a.isContainer with
  | false =>
    rw [equal_simple_iff (left.1.whole .refl) (right.1.whole .refl) outer]
    refine ⟨.simple outer, fun matched => ?_⟩
    cases matched with
    | simple _ same => exact same
    | list _ _ | dictionary _ => cases outer
  | true =>
    by_cases type : a.type = b.type
    case neg =>
      exact iff_of_false (Bool.eq_false_iff.mp (equal_of_type_ne outer type))
        fun matched => type (matched.type_eq outer)
    case pos =>
      cases a with
      | list g =>
        obtain ⟨h, rfl⟩ : ∃ h, b = .list h := by cases b <;> first | exact ⟨_, rfl⟩ | cases type
        rw [equal_list_iff law left]
        refine ⟨fun ⟨size, fits⟩ => .list size fits, fun matched => ?_⟩
        cases matched with
        | simple outer _ => cases outer
        | list size fits => exact ⟨size, fits⟩
      | dictionary g =>
        obtain ⟨h, rfl⟩ : ∃ h, b = .dictionary h := by
          cases b <;> first | exact ⟨_, rfl⟩ | cases type
        rw [equal_dictionary_iff law left right]
        refine ⟨.dictionary, fun matched => ?_⟩
        cases matched with
        | simple outer _ => cases outer
        | dictionary paired => exact paired
      | _ => cases outer

/-- One level up, equality is an equivalence, too. -/
theorem succ (law : s.EquivalenceOn (s.RegularWithin n)) :
    s.EquivalenceOn (s.RegularWithin (n + 1)) where
  refl {a} left := by
    rw [equal_iff_matches law left left]
    cases outer : a.isContainer with
    | false => exact .simple outer rfl
    | true =>
      cases a with
      | list g =>
        refine .list rfl fun i x y one other => ?_
        obtain rfl := Option.some.inj (one.symm.trans other)
        exact law.refl (left.item one)
      | dictionary g => exact .dictionary (law.paired_refl left.entries)
      | _ => cases outer
  symm {a b} left right same := by
    rw [equal_iff_matches law left right] at same
    rw [equal_iff_matches law right left]
    cases same with
    | simple outer same =>
      refine .simple ?_ same.symm
      rw [← Value.isContainer_canonical, ← same, Value.isContainer_canonical, outer]
    | list size fits =>
      refine .list size.symm fun i x y one other => ?_
      exact law.symm (left.item other) (right.item one) (fits i y x other one)
    | dictionary paired => exact .dictionary (law.paired_symm left.entries right.entries paired)
  trans {a b c} left middle right same same' := by
    rw [equal_iff_matches law left middle] at same
    rw [equal_iff_matches law middle right] at same'
    rw [equal_iff_matches law left right]
    cases same with
    | simple outer same =>
      cases same' with
      | simple _ same' => exact .simple outer (same.trans same')
      | list _ _ | dictionary _ =>
        rw [← Value.isContainer_canonical, same] at outer
        cases outer
    | list size fits =>
      cases same' with
      | simple outer _ => cases outer
      | list size' fits' =>
        refine .list (size.trans size') fun i x z one other => ?_
        -- the list in between is as long, so it has an item that both can be compared with
        obtain ⟨y, between⟩ : ∃ y, (s.items _)[i]? = some y :=
          ⟨_, Array.getElem?_eq_getElem (size ▸ (Array.getElem?_eq_some_iff.mp one).1)⟩
        exact law.trans (left.item one) (middle.item between) (right.item other)
          (fits i x y one between) (fits' i y z between other)
    | dictionary paired =>
      cases same' with
      | simple outer _ => cases outer
      | dictionary paired' =>
        exact .dictionary (law.paired_trans left.entries middle.entries right.entries paired paired')

theorem equivalence (n : Nat) : s.EquivalenceOn (s.RegularWithin n) := by
  induction n with
  | zero => exact ⟨fun left => left.2.elim, fun left => left.2.elim, fun left => left.2.elim⟩
  | succ n ih => exact succ ih

end RegularWithin

/-- Regular values are regular at a common height. -/
theorem exists_regularWithin (left : s.Regular a) (middle : s.Regular b) (right : s.Regular c) :
    ∃ n, s.RegularWithin n a ∧ s.RegularWithin n b ∧ s.RegularWithin n c := by
  obtain ⟨k, first⟩ := left.exists_shallow
  obtain ⟨m, second⟩ := middle.exists_shallow
  obtain ⟨n, third⟩ := right.exists_shallow
  refine ⟨max k (max m n), ⟨left, first.mono ?_⟩, ⟨middle, second.mono ?_⟩, ⟨right, third.mono ?_⟩⟩
  all_goals omega

theorem equivalence_regular : s.EquivalenceOn s.Regular where
  refl left :=
    have ⟨n, left, _, _⟩ := exists_regularWithin left left left
    (RegularWithin.equivalence n).refl left
  symm left right :=
    have ⟨n, left, right, _⟩ := exists_regularWithin left right right
    (RegularWithin.equivalence n).symm left right
  trans left middle right :=
    have ⟨n, left, middle, right⟩ := exists_regularWithin left middle right
    (RegularWithin.equivalence n).trans left middle right

theorem equal_dictionary_iff_paired {g h : Handle} (left : s.Regular (.dictionary g))
    (right : s.Regular (.dictionary h)) :
    s.equal (.dictionary g) (.dictionary h) = true ↔ s.Paired (s.entries g) (s.entries h) := by
  obtain ⟨n, left, right, _⟩ := exists_regularWithin left right right
  have up {h : Handle} (within : s.RegularWithin n (.dictionary h)) :
      s.RegularWithin (n + 1) (.dictionary h) := ⟨within.1, within.2.mono n.le_succ⟩
  exact RegularWithin.equal_dictionary_iff (RegularWithin.equivalence n) (up left) (up right)

/-- On values without doubles that do not contain themselves and whose dictionaries repeat no key,
equality is reflexive, symmetric and transitive; and two such dictionaries are equal if and only if
their entries can be paired off, whatever their order, with equal keys and equal values. -/
theorem equal_lawful (left : s.Regular a) (middle : s.Regular b) (right : s.Regular c) :
    s.equal a a = true ∧ (s.equal a b = true → s.equal b a = true) ∧
      (s.equal a b = true → s.equal b c = true → s.equal a c = true) ∧
      ∀ g h, a = .dictionary g → b = .dictionary h → (s.equal a b = true ↔
        ∃ pairing : Fin (s.entries g).size ≃ Fin (s.entries h).size, ∀ i,
          s.equal (s.entries g)[i].1 (s.entries h)[pairing i].1 = true ∧
            s.equal (s.entries g)[i].2 (s.entries h)[pairing i].2 = true) := by
  refine ⟨equivalence_regular.refl left, equivalence_regular.symm left middle,
    equivalence_regular.trans left middle right, ?_⟩
  rintro g h rfl rfl
  exact equal_dictionary_iff_paired left middle

/-- Two dictionaries with a list as a key, in another order and with the boolean for the number. -/
theorem equal_lawful_reordered :
    let s : Store := {
      lists := #[#[.number (.int 1)], #[.boolean true]]
      dictionaries := #[#[(.list 0, .boolean true), (.string "x", .null)],
        #[(.string "x", .null), (.list 1, .number (.int 1))]] }
    s.Regular (.dictionary 0) ∧ s.Regular (.dictionary 1) ∧
      s.equal (.dictionary 0) (.dictionary 1) = true ∧
        s.equal (.dictionary 1) (.dictionary 0) = true := by
  intro s
  have list (h : Handle) (small : h < 2) : s.Regular (.list h) := by
    refine .of_inner rfl (fun w inside => ?_) (fun _ => (nomatch ·))
    interval_cases h <;> obtain rfl := Array.mem_singleton.mp inside <;> exact .of_simple rfl rfl
  have dictionary (h : Handle) (small : h < 2) : s.Regular (.dictionary h) := by
    refine .of_inner rfl (fun w inside => ?_) (fun g same => ?_)
    · obtain ⟨entry, here, same⟩ := inside
      interval_cases h <;> simp only [s, entries, List.getElem?_toArray, Option.getD_some,
        List.getElem?_cons_zero, List.getElem?_cons_succ, Array.mem_def, List.mem_cons,
        List.not_mem_nil, or_false] at here <;> rcases here with rfl | rfl <;>
          rcases same with rfl | rfl <;> first | exact list _ (by decide) | exact .of_simple rfl rfl
    · cases same
      interval_cases h <;> decide +kernel
  have left := dictionary 0 (by decide)
  have right := dictionary 1 (by decide)
  have forth : s.equal (.dictionary 0) (.dictionary 1) = true := by decide +kernel
  exact ⟨left, right, forth, (equal_lawful left right left).2.1 forth⟩

end Store

end BasicScript
