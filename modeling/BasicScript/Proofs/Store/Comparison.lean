import BasicScript.Store.Equality
import Mathlib.Data.Fintype.Prod
import Mathlib.Logic.Relation
import Mathlib.Order.Monotone.Basic

/-! How values are compared. Entering containers deeper only adds answers, and at the depth that
`equal` enters them all answers are there. Two values compare in the same way in all stores that
agree on what is inside of them. -/

set_option autoImplicit false

namespace BasicScript

section Answers

variable {α : Type} {items : List α} {f g : α → Option Bool}

/-- With more answers to go on, a test of all items gives at least the answers it gave. -/
theorem allM_mono {r : Bool} (more : ∀ x ∈ items, ∀ r, f x = some r → g x = some r)
    (answered : items.allM f = some r) : items.allM g = some r := by
  induction items with
  | nil => exact answered
  | cons x rest ih =>
    rw [List.allM] at answered ⊢
    cases first : f x with
    | none => simp [first] at answered
    | some b =>
      rw [first] at answered
      rw [more x List.mem_cons_self b first]
      cases b with
      | false => exact answered
      | true => exact ih (fun y inside => more y (List.mem_cons_of_mem x inside)) answered

theorem findM?_mono {r : Option α} (more : ∀ x ∈ items, ∀ r, f x = some r → g x = some r)
    (answered : items.findM? f = some r) : items.findM? g = some r := by
  induction items with
  | nil => exact answered
  | cons x rest ih =>
    rw [List.findM?] at answered ⊢
    cases first : f x with
    | none => simp [first] at answered
    | some b =>
      rw [first] at answered
      rw [more x List.mem_cons_self b first]
      cases b with
      | true => exact answered
      | false => exact ih (fun y inside => more y (List.mem_cons_of_mem x inside)) answered

theorem mem_of_findM? {x : α} (found : items.findM? f = some (some x)) : x ∈ items := by
  induction items with
  | nil => cases found
  | cons y rest ih =>
    rw [List.findM?] at found
    cases first : f y with
    | none => simp [first] at found
    | some b =>
      rw [first] at found
      cases b with
      | true => cases found; exact List.mem_cons_self
      | false => exact List.mem_cons_of_mem y (ih found)

end Answers

/-- A table that each step brings closer to its end: entries that are `settled` stay, those that are
not are all alike, and only those with a number in `ι` are ever changed. Where one step settles
nothing new, no further step does, so there is nothing left to do after as many steps as there are
numbers. -/
theorem table_stable {α β ι : Type} [Fintype ι] (table : Nat → α → β) (step : (α → β) → α → β)
    (settled : β → Prop) (number : ι → α) (next : ∀ n, table (n + 1) = step (table n))
    (stays : ∀ n a, settled (table n a) → table (n + 1) a = table n a)
    (alike : ∀ b c, ¬settled b → ¬settled c → b = c)
    (outside : ∀ n a, (∀ i, number i ≠ a) → table (n + 1) a = table n a)
    {n : Nat} (enough : Fintype.card ι ≤ n) : table n = table (Fintype.card ι) := by
  classical
  let done (n : Nat) : Finset ι := Finset.univ.filter fun i => settled (table n (number i))
  have more (n : Nat) : done n ⊆ done (n + 1) := by
    intro i inside
    simp only [done, Finset.mem_filter_univ] at inside ⊢
    rwa [stays n _ inside]
  -- a step that settles no more entries changes none, as all that are open stay alike
  have idle {n : Nat} (card : (done (n + 1)).card = (done n).card) : table (n + 1) = table n := by
    have same : done n = done (n + 1) := Finset.eq_of_subset_of_card_le (more n) (Nat.le_of_eq card)
    funext a
    by_cases there : ∃ i, number i = a
    case neg => exact outside n a (not_exists.mp there)
    case pos =>
      obtain ⟨i, rfl⟩ := there
      by_cases here : settled (table n (number i))
      · exact stays n _ here
      · have here' : i ∉ done (n + 1) := same ▸ by simpa [done] using here
        exact alike _ _ (by simpa [done] using here') here
  have ended {m : Nat} (enough : Fintype.card ι ≤ m) :
      (done m).card = (done (Fintype.card ι)).card := by
    refine Nat.stabilises_of_monotone (monotone_nat_of_le_succ fun n => Finset.card_le_card (more n))
      (fun n => Finset.card_le_univ (done n)) (fun n card => ?_) enough
    have same := idle card.symm
    simp only [done, next (n + 1), same, ← next n]
  induction n, enough using Nat.le_induction with
  | base => rfl
  | succ n enough ih =>
    exact (idle ((ended (Nat.le_succ_of_le enough)).trans (ended enough).symm)).trans ih

namespace Store

variable {s t : Store} {a b v w : Value}

/-- The value `v` stands in the container `w`. -/
def Contains (s : Store) (w v : Value) : Prop :=
  match w with
  | .list h => v ∈ s.items h
  | .dictionary h => ∃ entry ∈ s.entries h, v = entry.1 ∨ v = entry.2
  | _ => False

/-- What stands in the value, if it is a container, is the same in both stores. -/
def SameAt (s t : Store) : Value → Prop
  | .list h => s.items h = t.items h
  | .dictionary h => s.entries h = t.entries h
  | _ => True

theorem SameAt.refl (s : Store) (w : Value) : s.SameAt s w := by
  cases w with
  | list _ | dictionary _ => exact rfl
  | number _ | string _ | boolean _ | null | function _ | builtIn _ | module _ => trivial

theorem SameAt.contains (same : s.SameAt t w) : s.Contains w v ↔ t.Contains w v := by
  cases w with
  | list h | dictionary h => simp only [Contains, show _ = _ from same]
  | number _ | string _ | boolean _ | null | function _ | builtIn _ | module _ => exact .rfl

/-! ### One step of a comparison -/

section Step

variable {f g : Value → Value → Option Bool}

/-- With more answers for what stands in the values, their comparison gives at least those it
gave. -/
theorem equalBy?_mono {r : Bool}
    (more : ∀ x y, s.Contains a x → s.Contains b y →
      (∀ r, f x y = some r → g x y = some r) ∧ ∀ r, f y x = some r → g y x = some r)
    (answered : s.equalBy? f a b = some r) : s.equalBy? g a b = some r := by
  cases a <;> cases b <;> try exact answered
  case list.list a b =>
    simp only [equalBy?] at answered ⊢
    split <;> rename_i apart
    · rwa [if_pos apart] at answered
    rw [if_neg apart] at answered
    split <;> rename_i longer
    · rwa [if_pos longer] at answered
    rw [if_neg longer] at answered
    refine allM_mono (fun pair inside => ?_) answered
    obtain ⟨left, right⟩ := List.of_mem_zip inside
    exact (more _ _ (Array.mem_toList_iff.mp left) (Array.mem_toList_iff.mp right)).1
  case dictionary.dictionary a b =>
    simp only [equalBy?] at answered ⊢
    split <;> rename_i apart
    · rwa [if_pos apart] at answered
    rw [if_neg apart] at answered
    split <;> rename_i longer
    · rwa [if_pos longer] at answered
    rw [if_neg longer] at answered
    refine allM_mono (fun entry inside r answered => ?_) answered
    have left := Array.mem_toList_iff.mp inside
    -- the search compares keys of `b` with that of the entry, so the other way round
    have keys (other) (right : other ∈ (s.entries b).toList) :=
      (more _ _ ⟨entry, left, .inl rfl⟩ ⟨other, Array.mem_toList_iff.mp right, .inl rfl⟩).2
    cases found : (s.entries b).toList.findM? fun other => f other.1 entry.1 with
    | none => simp [found] at answered
    | some other =>
      rw [found] at answered
      rw [findM?_mono keys found]
      cases other with
      | none => exact answered
      | some other =>
        have right := Array.mem_toList_iff.mp (mem_of_findM? found)
        exact (more _ _ ⟨entry, left, .inr rfl⟩ ⟨other, right, .inr rfl⟩).1 r answered

/-- Comparing values looks at nothing but what stands in them, and how that compares. -/
theorem equalBy?_congr (left : s.SameAt t a) (right : s.SameAt t b)
    (agree : ∀ x y, s.Contains a x → s.Contains b y → f x y = g x y ∧ f y x = g y x) :
    s.equalBy? f a b = t.equalBy? g a b := by
  have same : s.equalBy? g a b = t.equalBy? g a b := by
    cases a <;> cases b <;> try rfl
    case list.list => simp only [equalBy?, show _ = _ from left, show _ = _ from right]
    case dictionary.dictionary => simp only [equalBy?, show _ = _ from left, show _ = _ from right]
  rw [← same]
  refine Option.ext fun r => ⟨equalBy?_mono fun x y here there => ?_,
    equalBy?_mono fun x y here there => ?_⟩
  · exact ⟨fun r => (agree x y here there).1 ▸ id, fun r => (agree x y here there).2 ▸ id⟩
  · exact ⟨fun r => (agree x y here there).1 ▸ id, fun r => (agree x y here there).2 ▸ id⟩

end Step

/-! ### The depth of a comparison -/

theorem equalWithin?_succ {n : Nat} {r : Bool} (answered : s.equalWithin? n a b = some r) :
    s.equalWithin? (n + 1) a b = some r := by
  induction n generalizing a b r with
  | zero => exact equalBy?_mono (by simp) answered
  | succ n ih => exact equalBy?_mono (fun _ _ _ _ => ⟨fun _ => ih, fun _ => ih⟩) answered

theorem equalWithin?_mono {m n : Nat} {r : Bool} (less : m ≤ n)
    (answered : s.equalWithin? m a b = some r) : s.equalWithin? n a b = some r := by
  induction less with
  | refl => exact answered
  | step _ ih => exact equalWithin?_succ ih

def container (s : Store) (i : Fin s.depth) : Value :=
  if i < s.lists.size then .list i else .dictionary (i - s.lists.size)

theorem exists_container_list {h : Handle} (full : (s.items h).size ≠ 0) :
    ∃ i, s.container i = .list h := by
  have inside : h < s.lists.size := by
    by_contra beyond
    simp [items, Array.getElem?_eq_none (Nat.le_of_not_lt beyond)] at full
  exact ⟨⟨h, Nat.lt_add_right _ inside⟩, if_pos inside⟩

theorem exists_container_dictionary {h : Handle} (full : (s.entries h).size ≠ 0) :
    ∃ i, s.container i = .dictionary h := by
  have inside : h < s.dictionaries.size := by
    by_contra beyond
    simp [entries, Array.getElem?_eq_none (Nat.le_of_not_lt beyond)] at full
  exact ⟨⟨s.lists.size + h, Nat.add_lt_add_left inside _⟩, by simp [container]⟩

/-- Only two containers may leave a comparison without an answer. -/
theorem containers_of_equalBy? {f : Value → Value → Option Bool}
    (unanswered : s.equalBy? f a b = none) : ∃ i j, s.container i = a ∧ s.container j = b := by
  cases a <;> cases b <;> try cases unanswered
  case list.list a b =>
    simp only [equalBy?] at unanswered
    split at unanswered
    · cases unanswered
    split at unanswered
    · cases unanswered
    rename_i size
    -- two empty lists would have been found to be equal
    have full : (s.items a).size ≠ 0 := by
      intro none
      have none : (s.items a).toList = [] := by simpa using none
      simp [none] at unanswered
    obtain ⟨i, left⟩ := exists_container_list full
    obtain ⟨j, right⟩ := exists_container_list (not_not.mp size ▸ full)
    exact ⟨i, j, left, right⟩
  case dictionary.dictionary a b =>
    simp only [equalBy?] at unanswered
    split at unanswered
    · cases unanswered
    split at unanswered
    · cases unanswered
    rename_i size
    have full : (s.entries a).size ≠ 0 := by
      intro none
      have none : (s.entries a).toList = [] := by simpa using none
      simp [none] at unanswered
    obtain ⟨i, left⟩ := exists_container_dictionary full
    obtain ⟨j, right⟩ := exists_container_dictionary (not_not.mp size ▸ full)
    exact ⟨i, j, left, right⟩

theorem containers_of_equalWithin? {n : Nat} (unanswered : s.equalWithin? n a b = none) :
    ∃ i j, s.container i = a ∧ s.container j = b := by
  cases n with
  | zero => exact containers_of_equalBy? unanswered
  | succ n => exact containers_of_equalBy? unanswered

/-- No comparison needs a greater depth than there are pairs of containers. -/
theorem equalWithin?_depth {n : Nat} (deep : s.depth * s.depth ≤ n) :
    s.equalWithin? n = s.equalWithin? (s.depth * s.depth) := by
  have stable := table_stable (n := n) (fun n pair => s.equalWithin? n pair.1 pair.2)
    (fun table pair => s.equalBy? (fun x y => table (x, y)) pair.1 pair.2) (· ≠ none)
    (fun pair : Fin s.depth × Fin s.depth => (s.container pair.1, s.container pair.2)) (fun _ => rfl)
    (fun n pair answered => ?_) (fun b c left right => ?_) (fun n pair outside => ?_) (by simpa using deep)
  · simp only [Fintype.card_prod, Fintype.card_fin] at stable
    funext a b
    exact congrFun stable (a, b)
  · obtain ⟨r, answer⟩ := Option.ne_none_iff_exists'.mp answered
    exact (equalWithin?_succ answer).trans answer.symm
  · rw [not_not.mp left, not_not.mp right]
  · cases answer : s.equalWithin? n pair.1 pair.2 with
    | some r => exact equalWithin?_succ answer
    | none =>
      obtain ⟨i, j, left, right⟩ := containers_of_equalWithin? answer
      exact absurd (Prod.ext left right) (outside (i, j))

/-- The depth that `equal` goes to is as good as any. -/
theorem equal_iff : s.equal a b = true ↔ ∃ n, s.equalWithin? n a b = some true := by
  rw [equal, beq_iff_eq]
  refine ⟨fun found => ⟨_, found⟩, fun ⟨n, found⟩ => ?_⟩
  rcases Nat.le_total n (s.depth * s.depth) with less | more
  · exact equalWithin?_mono less found
  · rwa [equalWithin?_depth more] at found

theorem equal_of_equalWithin? {n : Nat} {r : Bool} (answer : s.equalWithin? n a b = some r) :
    s.equal a b = r := by
  cases r with
  | true => exact equal_iff.mpr ⟨n, answer⟩
  | false =>
    refine Bool.eq_false_iff.mpr fun same => ?_
    obtain ⟨m, found⟩ := equal_iff.mp same
    have one := equalWithin?_mono (Nat.le_max_left m n) found
    have other := equalWithin?_mono (Nat.le_max_right m n) answer
    rw [one] at other
    cases other

/-! ### What a comparison depends on -/

/-- Whatever is inside of the value, at any depth, is the same in both stores. -/
def Kept (s t : Store) (v : Value) : Prop := ∀ w, Relation.ReflTransGen s.Contains v w → s.SameAt t w

namespace Kept

theorem sameAt (kept : s.Kept t v) : s.SameAt t v := kept v .refl

theorem inner (kept : s.Kept t v) (inside : s.Contains v w) : s.Kept t w :=
  fun u reaches => kept u (.head inside reaches)

theorem equalWithin? (left : s.Kept t a) (right : s.Kept t b) (n : Nat) :
    s.equalWithin? n a b = t.equalWithin? n a b := by
  induction n generalizing a b with
  | zero => exact equalBy?_congr left.sameAt right.sameAt fun _ _ _ _ => ⟨rfl, rfl⟩
  | succ n ih =>
    refine equalBy?_congr left.sameAt right.sameAt fun x y here there => ?_
    exact ⟨ih (left.inner here) (right.inner there), ih (right.inner there) (left.inner here)⟩

theorem equal (left : s.Kept t a) (right : s.Kept t b) : s.equal a b = t.equal a b := by
  rw [Bool.eq_iff_iff, equal_iff, equal_iff]
  exact exists_congr fun n => by rw [left.equalWithin? right]

end Kept

def inner (s : Store) : Value → List Value
  | .list h => (s.items h).toList
  | .dictionary h => (s.entries h).toList.flatMap fun entry => [entry.1, entry.2]
  | _ => []

theorem contains_iff : s.Contains w v ↔ v ∈ s.inner w := by
  cases w with
  | list h => exact Array.mem_toList_iff.symm
  | dictionary h => simp [Contains, inner]
  | number _ | string _ | boolean _ | null | function _ | builtIn _ | module _ => simp [Contains, inner]

instance (s t : Store) (v : Value) : Decidable (s.SameAt t v) :=
  match v with
  | .list h => inferInstanceAs (Decidable (s.items h = t.items h))
  | .dictionary h => inferInstanceAs (Decidable (s.entries h = t.entries h))
  | .number _ | .string _ | .boolean _ | .null | .function _ | .builtIn _ | .module _ => .isTrue trivial

def keptWithin (s t : Store) : Nat → Value → Bool
  | 0, v => s.SameAt t v
  | depth + 1, v => s.SameAt t v && (s.inner v).all (s.keptWithin t depth)

theorem keptWithin_succ {n : Nat} (changed : s.keptWithin t n v = false) :
    s.keptWithin t (n + 1) v = false := by
  induction n generalizing v with
  | zero =>
    rw [keptWithin] at changed
    rw [keptWithin, changed, Bool.false_and]
  | succ n ih =>
    rw [keptWithin, Bool.and_eq_false_iff, List.all_eq_false] at changed ⊢
    exact changed.imp_right fun ⟨w, inside, changed⟩ => ⟨w, inside, by simp [ih (by simpa using changed)]⟩

theorem keptWithin_mono {m n : Nat} (less : m ≤ n) (changed : s.keptWithin t m v = false) :
    s.keptWithin t n v = false := by
  induction less with
  | refl => exact changed
  | step _ ih => exact keptWithin_succ ih

theorem inner_of_outside (outside : ∀ i, s.container i ≠ v) : s.inner v = [] := by
  cases v with
  | list h =>
    by_contra full
    obtain ⟨i, here⟩ := exists_container_list (s := s) (h := h) (by simpa [inner] using full)
    exact outside i here
  | dictionary h =>
    by_contra full
    obtain ⟨i, here⟩ := exists_container_dictionary (s := s) (h := h) fun empty =>
      full (by simp [inner, Array.eq_empty_of_size_eq_zero empty])
    exact outside i here
  | number _ | string _ | boolean _ | null | function _ | builtIn _ | module _ => rfl

/-- There are no more steps inward than containers. -/
theorem keptWithin_depth {n : Nat} (deep : s.depth ≤ n) :
    s.keptWithin t n = s.keptWithin t s.depth := by
  have stable := table_stable (n := n) (s.keptWithin t)
    (fun table v => s.SameAt t v && (s.inner v).all table) (· = false) s.container (fun _ => rfl)
    (fun n v changed => ?_) (fun b c left right => ?_) (fun n v outside => ?_) (by simpa using deep)
  · simpa using stable
  · rw [keptWithin_succ changed, changed]
  · rw [Bool.eq_true_of_not_eq_false left, Bool.eq_true_of_not_eq_false right]
  · cases n <;> simp [keptWithin, inner_of_outside outside]

theorem kept_iff : s.Kept t v ↔ s.keptWithin t s.depth v = true := by
  constructor
  · intro kept
    generalize s.depth = n
    induction n generalizing v with
    | zero => exact decide_eq_true kept.sameAt
    | succ n ih =>
      rw [keptWithin, Bool.and_eq_true, List.all_eq_true]
      exact ⟨decide_eq_true kept.sameAt, fun w inside => ih (kept.inner (contains_iff.mpr inside))⟩
  · intro kept w reaches
    have all (n : Nat) : s.keptWithin t n v = true := by
      rcases Nat.le_total n s.depth with less | more
      · exact Bool.eq_true_of_not_eq_false fun changed => by simp [keptWithin_mono less changed] at kept
      · rwa [keptWithin_depth more]
    clear kept
    induction reaches using Relation.ReflTransGen.head_induction_on with
    | refl => exact of_decide_eq_true (all 0)
    | head inside _ ih =>
      refine ih fun n => ?_
      have here := all (n + 1)
      rw [keptWithin, Bool.and_eq_true, List.all_eq_true] at here
      exact here.2 _ (contains_iff.mp inside)

instance (s t : Store) (v : Value) : Decidable (s.Kept t v) := decidable_of_iff' _ kept_iff

end Store

end BasicScript
