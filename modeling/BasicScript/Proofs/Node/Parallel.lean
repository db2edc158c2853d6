import BasicScript.Proofs.Node.Loop
import Mathlib.Logic.Function.Iterate

/-! Two kinds of places. Where a parser sees the same at both, every rule of the grammar does the
same at both. There is one lemma for each step of a parser and one for each rule. How many tokens
may be left, before and after, is part of the judgement: a rule that has taken a token may call
rules that are unfolded once less, and a loop goes on with one round less. So it does not matter how
often the rules are unfolded or how many rounds a loop is given, as long as it is more often than
there are tokens, nor what stands below these bounds. -/

set_option autoImplicit false

namespace BasicScript

/-- Places of two kinds at which a parser sees the same. Each step takes one of the tokens that are
left. -/
class Alike {σ τ : Type} [TokenSource σ] [TokenSource τ] (R : σ → τ → Prop) : Prop where
  taken {s : σ} {t : τ} : R s t → TokenSource.taken s = TokenSource.taken t
  left {s : σ} {t : τ} : R s t → TokenSource.left s = TokenSource.left t
  next? {s : σ} {t : τ} : R s t → TokenSource.next? s = TokenSource.next? t
  sign? {s : σ} {t : τ} {token : Token} : R s t → TokenSource.next? s = some token →
    Grammar.assignmentSign? token s = Grammar.assignmentSign? token t
  faultSpan {s : σ} {t : τ} : R s t → TokenSource.faultSpan s = TokenSource.faultSpan t
  advance {s : σ} {t : τ} : R s t → R (TokenSource.advance s) (TokenSource.advance t)
  left_pos {s : σ} {t : τ} {token : Token} :
    R s t → TokenSource.next? s = some token → 0 < TokenSource.left s
  left_advance {s : σ} {t : τ} :
    R s t → TokenSource.left (TokenSource.advance s) = TokenSource.left s - 1

variable {σ τ : Type} [TokenSource σ] {R : σ → τ → Prop} {k : Nat}

/-- Two ends of a parser: the same value or the same fault, at places that are alike. Behind a value
fewer than `l` tokens are left. -/
inductive Agreed (R : σ → τ → Prop) (l : Nat) {α : Type} :
    EStateM.Result Diagnostic σ α → EStateM.Result Diagnostic τ α → Prop
  | value {a : α} {s : σ} {t : τ} (related : R s t) (left : TokenSource.left s < l) :
    Agreed R l (.ok a s) (.ok a t)
  | stop {d : Diagnostic} {s : σ} {t : τ} (related : R s t) : Agreed R l (.error d s) (.error d t)

/-- As long as fewer than `k` tokens are left, `p` does what `q` does at a place that is alike. -/
def Parallel (R : σ → τ → Prop) (k l : Nat) {α : Type} (p : ParserOver σ α) (q : ParserOver τ α) :
    Prop :=
  ∀ ⦃s : σ⦄ ⦃t : τ⦄, R s t → TokenSource.left s < k → Agreed R l (p s) (q t)

namespace Parallel

variable {α β : Type} {l m : Nat} {p : ParserOver σ α} {q : ParserOver τ α}

theorem none_left : Parallel R 0 l p q := fun _ _ _ left => absurd left (Nat.not_lt_zero _)

theorem mono {k' l' : Nat} (parallel : Parallel R k l p q) (before : k' ≤ k) (after : l ≤ l') :
    Parallel R k' l' p q := by
  intro s t related left
  have ends := parallel related (Nat.lt_of_lt_of_le left before)
  generalize p s = one, q t = other at ends ⊢
  cases ends with
  | value related left => exact .value related (Nat.lt_of_lt_of_le left after)
  | stop related => exact .stop related

theorem pure (a : α) : Parallel R k k (Pure.pure a) (Pure.pure a) := fun _ _ => .value

theorem bind {r : α → ParserOver σ β} {r' : α → ParserOver τ β} (first : Parallel R k l p q)
    (rest : ∀ a, Parallel R l m (r a) (r' a)) : Parallel R k m (p >>= r) (q >>= r') := by
  intro s t related left
  have ends := first related left
  simp only [Bind.bind, EStateM.bind]
  generalize p s = one, q t = other at ends ⊢
  cases ends with
  | value related left => exact rest _ related left
  | stop related => exact .stop related

theorem map (f : α → β) (parallel : Parallel R k l p q) : Parallel R k l (f <$> p) (f <$> q) := by
  rw [map_eq_pure_bind, map_eq_pure_bind]
  exact .bind parallel fun a => .pure (f a)

theorem ite {P : Prop} [Decidable P] {p' : ParserOver σ α} {q' : ParserOver τ α}
    (yes : Parallel R k l p q) (no : Parallel R k l p' q') :
    Parallel R k l (if P then p else p') (if P then q else q') := by
  split
  · exact yes
  · exact no

theorem fail (fault : Fault) (span : Span) :
    Parallel R k l (Parser.fail fault span : ParserOver σ α) (Parser.fail fault span) :=
  fun _ _ related _ => .stop related

theorem get {r : σ → ParserOver σ α} {r' : τ → ParserOver τ α}
    (rest : ∀ s t, R s t → TokenSource.left s < k → Agreed R l (r s s) (r' t t)) :
    Parallel R k l (MonadState.get >>= r) (MonadState.get >>= r') :=
  fun s t related left => rest s t related left

theorem tryCatch {handle : Diagnostic → ParserOver σ α} {handle' : Diagnostic → ParserOver τ α}
    {s : σ} {t : τ} (ends : Agreed R l (p s) (q t))
    (handles : ∀ d s t, R s t → Agreed R l (handle d s) (handle' d t)) :
    Agreed R l (MonadExcept.tryCatch p handle s) (MonadExcept.tryCatch q handle' t) := by
  generalize first : p s = one, second : q t = other at ends
  cases ends with
  | value related left =>
    rw [Parser.tryCatch_of_ok first, Parser.tryCatch_of_ok second]
    exact .value related left
  | stop related =>
    rw [Parser.tryCatch_of_error first, Parser.tryCatch_of_error second]
    exact handles _ _ _ related

section Loops

variable {ι : Type} {body : (ι → ParserOver σ α) → ι → ParserOver σ α} {stop : ι → ParserOver σ α}
  {body' : (ι → ParserOver τ α) → ι → ParserOver τ α} {stop' : ι → ParserOver τ α}

/-- A round of one loop does what a round of the other does, if what comes behind does so with one
token less. -/
def Round (R : σ → τ → Prop) (k : Nat) (body : (ι → ParserOver σ α) → ι → ParserOver σ α)
    (body' : (ι → ParserOver τ α) → ι → ParserOver τ α) : Prop :=
  ∀ j < k, ∀ again again', (∀ x, Parallel R j j (again x) (again' x)) →
    ∀ x, Parallel R (j + 1) (j + 1) (body again x) (body' again' x)

theorem Round.mono {j : Nat} (round : Round R k body body') (less : j ≤ k) :
    Round R j body body' :=
  fun i below => round i (Nat.lt_of_lt_of_le below less)

variable (stop stop') in
theorem iterate (round : Round R k body body') {n m : Nat} (enough : k ≤ n) (plenty : k ≤ m)
    (x : ι) :
    Parallel R k k (Parser.iterate body stop n x) (Parser.iterate body' stop' m x) := by
  induction k generalizing n m x with
  | zero => exact .none_left
  | succ k ih =>
    obtain ⟨n, rfl⟩ := Nat.exists_eq_add_of_le' enough
    obtain ⟨m, rfl⟩ := Nat.exists_eq_add_of_le' plenty
    refine round k (Nat.lt_succ_self k) _ _ (fun x => ?_) x
    exact ih (round.mono (Nat.le_succ k)) (Nat.le_add_left k n) (Nat.le_add_left k m) x

end Loops

variable [TokenSource τ] [Alike R]

theorem kind?_eq {s : σ} {t : τ} (related : R s t) : TokenSource.kind? s = TokenSource.kind? t :=
  congrArg (Option.map Token.kind) (Alike.next? related)

theorem describe_eq {s : σ} {t : τ} (related : R s t) :
    TokenSource.describe s = TokenSource.describe t :=
  congrArg (fun next => (Option.map Token.describe next).getD "end of file") (Alike.next? related)

theorem expected (what : Expected) :
    Parallel R k l (Parser.expected what : ParserOver σ α) (Parser.expected what) := by
  refine .get fun s t related _ => ?_
  rw [describe_eq related, Alike.faultSpan related]
  exact .stop related

theorem look {r : Option TokenKind → ParserOver σ α} {r' : Option TokenKind → ParserOver τ α}
    (rest : ∀ kind, Parallel R k l (r kind) (r' kind)) :
    Parallel R k l (Parser.peekKind? >>= r) (Parser.peekKind? >>= r') := by
  intro s t related left
  show Agreed R l (r (TokenSource.kind? s) s) (r' (TokenSource.kind? t) t)
  rw [kind?_eq related]
  exact rest _ related left

theorem takeIf {wanted : TokenKind → Bool} {r : Option Token → ParserOver σ α}
    {r' : Option Token → ParserOver τ α}
    (found : ∀ token, wanted token.kind = true → Parallel R k l (r (some token)) (r' (some token)))
    (other : Parallel R (k + 1) l (r none) (r' none)) :
    Parallel R (k + 1) l (Parser.takeIf? wanted >>= r) (Parser.takeIf? wanted >>= r') := by
  rw [Parser.takeIf?, Parser.takeIf?, bind_assoc, bind_assoc]
  refine .get fun s t related left => ?_
  rw [← Alike.next? related]
  cases next : TokenSource.next? s with
  | none => exact other related left
  | some token =>
    dsimp only
    by_cases want : wanted token.kind = true
    · rw [if_pos want, if_pos want]
      have fewer := Alike.left_advance related
      have some := Alike.left_pos related next
      exact found token want (Alike.advance related) (by omega)
    · rw [if_neg want, if_neg want]
      exact other related left

theorem take (kind : TokenKind) (what : Expected) :
    Parallel R (k + 1) k (Parser.take kind what) (Parser.take kind what) :=
  takeIf (fun token _ => .pure token) (.expected what)

theorem take_le (kind : TokenKind) (what : Expected) :
    Parallel R k k (Parser.take kind what) (Parser.take kind what) := by
  cases k with
  | zero => exact .none_left
  | succ k => exact (take kind what).mono (Nat.le_refl _) (Nat.le_succ k)

theorem takeIf_le {wanted : TokenKind → Bool} {r : Option Token → ParserOver σ α}
    {r' : Option Token → ParserOver τ α} (rest : ∀ token, Parallel R k k (r token) (r' token)) :
    Parallel R k k (Parser.takeIf? wanted >>= r) (Parser.takeIf? wanted >>= r') := by
  cases k with
  | zero => exact .none_left
  | succ k =>
    exact takeIf (fun token _ => (rest (some token)).mono (Nat.le_succ k) (Nat.le_refl _)) (rest none)

theorem skipped (n : Nat) {s : σ} {t : τ} (related : R s t) :
    R (TokenSource.skipNewlines n s) (TokenSource.skipNewlines n t) ∧
      TokenSource.left (TokenSource.skipNewlines n s) ≤ TokenSource.left s := by
  induction n generalizing s t with
  | zero => exact ⟨related, Nat.le_refl _⟩
  | succ n ih =>
    rw [TokenSource.skipNewlines, TokenSource.skipNewlines, kind?_eq related]
    split
    · obtain ⟨behind, fewer⟩ := ih (Alike.advance related)
      rw [Alike.left_advance related] at fewer
      exact ⟨behind, Nat.le_trans fewer (Nat.sub_le _ _)⟩
    · exact ⟨related, Nat.le_refl _⟩

theorem skipNewlines : Parallel R k k Parser.skipNewlines Parser.skipNewlines := by
  intro s t related left
  obtain ⟨behind, fewer⟩ := skipped (TokenSource.left s) related
  show Agreed R k (.ok () (TokenSource.skipNewlines (TokenSource.left s) s))
    (.ok () (TokenSource.skipNewlines (TokenSource.left t) t))
  rw [← Alike.left related]
  exact .value behind (Nat.lt_of_le_of_lt fewer left)

theorem operandOf (sign : Token) (parallel : Parallel R k l p q) :
    Parallel R k l (Parser.operandOf sign p) (Parser.operandOf sign q) := by
  refine .get fun before before' start left =>
    tryCatch (parallel start left) fun d after after' related => ?_
  show Agreed R l
    ((if TokenSource.taken after = TokenSource.taken before then _ else _ : ParserOver σ α) after)
    ((if TokenSource.taken after' = TokenSource.taken before' then _ else _ : ParserOver τ α) after')
  rw [describe_eq related, Alike.taken related, Alike.taken start]
  split
  · exact .stop related
  · exact .stop related

theorem loop {ι : Type} {body : (ι → ParserOver σ α) → ι → ParserOver σ α}
    {body' : (ι → ParserOver τ α) → ι → ParserOver τ α} (stop : ι → ParserOver σ α)
    (stop' : ι → ParserOver τ α) (round : Round R k body body') (x : ι) :
    Parallel R k k (Parser.loop body stop x) (Parser.loop body' stop' x) := by
  intro s t related left
  have same := iterate stop stop' (round.mono left) (Nat.le_refl _) (Nat.le_refl _) x
  have rounds : Parser.loop body' stop' x t =
      Parser.iterate body' stop' (TokenSource.left s + 1) x t := by
    rw [Alike.left related]
    rfl
  rw [rounds]
  exact same.mono (Nat.le_refl _) left related (Nat.lt_succ_self _)

end Parallel

/-- As long as fewer than `k` tokens are left, `p` does what `q` does at a place that is alike, and
takes a token when it has a value. -/
def Advances (R : σ → τ → Prop) (k : Nat) {α : Type} (p : ParserOver σ α) (q : ParserOver τ α) :
    Prop :=
  ∀ j < k, Parallel R (j + 1) j p q

namespace Advances

variable {α : Type} {p : ParserOver σ α} {q : ParserOver τ α}

theorem mono {j : Nat} (advances : Advances R k p q) (less : j ≤ k) : Advances R j p q :=
  fun i below => advances i (Nat.lt_of_lt_of_le below less)

theorem parallel (advances : Advances R k p q) : Parallel R k k p q := by
  cases k with
  | zero => exact .none_left
  | succ k => exact (advances k (Nat.lt_succ_self k)).mono (Nat.le_refl _) (Nat.le_succ k)

end Advances

structure RulesOver.Parallel (R : σ → τ → Prop) (k : Nat) (r : RulesOver σ) (r' : RulesOver τ) :
    Prop where
  expression : Advances R k r.expression r'.expression
  comparison : Advances R k r.comparison r'.comparison
  unary : Advances R k r.unary r'.unary
  statement : Advances R k r.statement r'.statement

theorem RulesOver.Parallel.mono {r : RulesOver σ} {r' : RulesOver τ} {j : Nat}
    (rules : r.Parallel R k r') (less : j ≤ k) : r.Parallel R j r' :=
  ⟨rules.expression.mono less, rules.comparison.mono less, rules.unary.mono less,
    rules.statement.mono less⟩

namespace Grammar

open BasicScript.Parser

variable {α : Type} {r : RulesOver σ} {r' : RulesOver τ} [TokenSource τ] [Alike R]

/-! ### Separators and blocks -/

theorem atKeyword_parallel (keywords : List Keyword) :
    Parallel R k k (atKeyword keywords) (atKeyword keywords) := by
  refine .look fun kind => ?_
  split <;> exact .pure _

theorem atBlockEnd_parallel : Parallel R k k atBlockEnd atBlockEnd := by
  refine .look fun kind => ?_
  cases kind with
  | none => exact .pure true
  | some _ => exact atKeyword_parallel blockEnds

theorem statementLine_advances {p : ParserOver σ Node} {q : ParserOver τ Node}
    (advances : Advances R k p q) : Advances R k (statementLine p) (statementLine q) := by
  refine fun j below => .bind (advances j below) fun node => .takeIf_le fun separator => ?_
  cases separator with
  | some _ => exact .pure node
  | none => exact .bind atBlockEnd_parallel fun _ => .ite (.pure node) (.expected _)

theorem blockBody_parallel (rules : r.Parallel R k r') (terminators : List Keyword)
    (opener : Keyword) :
    Parallel.Round R k (blockBody r terminators opener) (blockBody r' terminators opener) := by
  intro j below again again' further body
  refine .bind .skipNewlines fun _ => .bind (atKeyword_parallel terminators) fun _ =>
    .ite (.pure _) (.look fun kind => ?_)
  cases kind with
  | none => exact .expected _
  | some _ =>
    refine .bind (statementLine_advances rules.statement j below) fun node => ?_
    exact (further (node :: body)).mono (Nat.le_refl _) (Nat.le_succ j)

theorem block_parallel (rules : r.Parallel R k r') (terminators : List Keyword) (opener : Keyword) :
    Parallel R k k (block r terminators opener) (block r' terminators opener) := by
  rw [block_eq, block_eq]
  exact .loop _ _ (blockBody_parallel rules terminators opener) []

section Items

variable {p : ParserOver σ α} {q : ParserOver τ α} (item : ∀ j ≤ k, Parallel R j j p q)

include item

theorem itemsBody_parallel : Parallel.Round R k (itemsBody p) (itemsBody q) := by
  intro j below again again' further items
  refine .bind (item _ below) fun a => .bind .skipNewlines fun _ =>
    .takeIf (fun _ _ => ?_) (.pure _)
  exact (Parallel.bind .skipNewlines fun _ => further (a :: items)).mono (Nat.le_refl _)
    (Nat.le_succ j)

theorem itemsLoop_parallel : Parallel R k k (itemsLoop p []) (itemsLoop q []) :=
  .loop _ _ (itemsBody_parallel item) []

theorem itemsBefore_parallel (close : TokenKind) :
    Parallel R k k (itemsBefore close p) (itemsBefore close q) := by
  rw [itemsBefore_eq, itemsBefore_eq]
  exact .bind .skipNewlines fun _ => .look fun _ => .ite (.pure []) (itemsLoop_parallel item)

end Items

/-! ### Atoms -/

omit [TokenSource τ] [Alike R] in
theorem number_parallel (token : Token) : Parallel R k k (number token) (number token) := by
  unfold number
  split
  · exact .pure _
  · exact .pure _
  · exact .fail _ _

theorem group_parallel (rules : r.Parallel R k r') : Parallel R k k (group r) (group r') :=
  .bind .skipNewlines fun _ => .bind rules.expression.parallel fun inner =>
    .bind .skipNewlines fun _ => .bind (.take_le _ _) fun _ => .pure inner

theorem range_parallel (rules : r.Parallel R k r') (first : Span) (start : Node) :
    Parallel R k k (range r first start) (range r' first start) := by
  refine .bind rules.expression.parallel fun stop => .bind .skipNewlines fun _ =>
    .takeIf_le fun arrow => ?_
  cases arrow with
  | none => exact .bind (.pure _) fun _ => .bind (.take_le _ _) fun _ => .pure _
  | some _ =>
    exact .bind rules.expression.parallel fun _ => .bind .skipNewlines fun _ =>
      .bind (.pure _) fun _ => .bind (.take_le _ _) fun _ => .pure _

theorem list_parallel (rules : r.Parallel R k r') (first : Span) :
    Parallel R k k (list r first) (list r' first) := by
  rw [list_eq, list_eq]
  refine .bind .skipNewlines fun _ => .takeIf_le fun last => ?_
  cases last with
  | some last => exact .pure _
  | none =>
    refine .bind rules.expression.parallel fun start => .bind .skipNewlines fun _ =>
      .takeIf_le fun arrow => ?_
    cases arrow with
    | some _ => exact range_parallel rules first start
    | none =>
      refine .takeIf_le fun comma => ?_
      cases comma with
      | none => exact .bind (.pure _) fun _ => .bind (.take_le _ _) fun _ => .pure _
      | some _ =>
        have items := itemsLoop_parallel fun j less => (rules.mono less).expression.parallel
        exact .bind .skipNewlines fun _ => .bind items fun _ => .bind (.take_le _ _) fun _ => .pure _

theorem entry_parallel (rules : r.Parallel R k r') : Parallel R k k (entry r) (entry r') :=
  .bind rules.expression.parallel fun key => .bind (.take_le _ _) fun _ => .bind .skipNewlines fun _ =>
    .bind rules.expression.parallel fun value => .pure (key, value)

theorem dictionary_parallel (rules : r.Parallel R k r') (first : Span) :
    Parallel R k k (dictionary r first) (dictionary r' first) :=
  .bind (itemsBefore_parallel (fun _ less => entry_parallel (rules.mono less)) _) fun _ =>
    .bind (.take_le _ _) fun _ => .pure _

theorem branch_parallel (rules : r.Parallel R k r') (terminators : List Keyword) (opener : Keyword) :
    Parallel R k k (branch r terminators opener) (branch r' terminators opener) :=
  .bind rules.expression.parallel fun condition => .bind (.take_le _ _) fun _ =>
    .bind (block_parallel rules terminators opener) fun body => .pure (condition, body)

theorem elseIfsBody_parallel (rules : r.Parallel R k r') :
    Parallel.Round R k (elseIfsBody r) (elseIfsBody r') := by
  intro j below again again' further branches
  refine .takeIf (fun _ _ => ?_) (.pure _)
  have branch := branch_parallel (rules.mono (Nat.le_of_lt below)) blockEnds .elseIf
  exact (Parallel.bind branch fun branch => further (branch :: branches)).mono (Nat.le_refl _)
    (Nat.le_succ j)

theorem ifElse_parallel (rules : r.Parallel R k r') (first : Span) :
    Parallel R k k (ifElse r first) (ifElse r' first) := by
  rw [ifElse_eq, ifElse_eq]
  refine .bind (branch_parallel rules blockEnds .if) fun head =>
    .bind (.loop _ _ (elseIfsBody_parallel rules) [head]) fun branches => .takeIf_le fun other => ?_
  cases other with
  | none => exact .bind (.pure _) fun _ => .bind (.take_le _ _) fun _ => .pure _
  | some _ =>
    exact .bind (.map _ (block_parallel rules [.end] .else)) fun _ =>
      .bind (.take_le _ _) fun _ => .pure _

theorem whileLoop_parallel (rules : r.Parallel R k r') (first : Span) :
    Parallel R k k (whileLoop r first) (whileLoop r' first) :=
  .bind (branch_parallel rules [.end] .while) fun _ => .bind (.take_le _ _) fun _ => .pure _

theorem forLoop_parallel (rules : r.Parallel R k r') (first : Span) :
    Parallel R k k (forLoop r first) (forLoop r' first) :=
  .bind (.take_le _ _) fun _ => .bind (.take_le _ _) fun _ =>
    .bind (branch_parallel rules [.end] .for) fun _ => .bind (.take_le _ _) fun _ => .pure _

theorem parameter_parallel (names : List String) :
    Parallel R (k + 1) k (parameter names) (parameter names) :=
  .bind (.take _ _) fun _ => .ite (.bind (.fail _ _) fun _ => .pure _) (.pure _)

theorem parametersBody_parallel : Parallel.Round R k parametersBody parametersBody := by
  intro j below again again' further names
  refine .mono (.bind (parameter_parallel names) fun param => .takeIf_le fun comma => ?_)
    (Nat.le_refl _) (Nat.le_succ j)
  cases comma with
  | none => exact .pure _
  | some _ => exact further (param :: names)

theorem parameters_parallel : Parallel R k k parameters parameters := by
  rw [parameters_eq, parameters_eq]
  exact .look fun _ => .ite (.pure []) (.loop _ _ parametersBody_parallel [])

theorem function_parallel (rules : r.Parallel R k r') (first : Span) :
    Parallel R k k (function r first) (function r' first) :=
  .takeIf_le fun _ => .bind (.take_le _ _) fun _ => .bind parameters_parallel fun _ =>
    .bind (.take_le _ _) fun _ => .bind (block_parallel rules [.end] .function) fun _ =>
      .bind (.take_le _ _) fun _ => .pure _

inductive ParallelIf (R : σ → τ → Prop) (k : Nat) :
    Option (ParserOver σ α) → Option (ParserOver τ α) → Prop
  | some {p : ParserOver σ α} {q : ParserOver τ α} (parallel : Parallel R k k p q) :
    ParallelIf R k (some p) (some q)
  | none : ParallelIf R k none none

theorem atomOf?_parallel (rules : r.Parallel R k r') (token : Token) :
    ParallelIf R k (atomOf? r token) (atomOf? r' token) := by
  unfold atomOf?
  split
  · exact .some (number_parallel token)
  · exact .some (number_parallel token)
  · exact .some (.pure _)
  · exact .some (.pure _)
  · exact .some (group_parallel rules)
  · exact .some (list_parallel rules token.span)
  · exact .some (dictionary_parallel rules token.span)
  · exact .some (ifElse_parallel rules token.span)
  · exact .some (whileLoop_parallel rules token.span)
  · exact .some (forLoop_parallel rules token.span)
  · exact .some (function_parallel rules token.span)
  · exact .none

theorem atom_parallel (rules : r.Parallel R k r') : Parallel R (k + 1) k (atom r) (atom r') := by
  refine .get fun s t related left => ?_
  rw [← Alike.next? related]
  cases next : TokenSource.next? s with
  | none => exact Parallel.expected _ related left
  | some token =>
    have rule := atomOf?_parallel rules token
    dsimp only
    generalize atomOf? r token = one, atomOf? r' token = other at rule
    cases rule with
    | none => exact Parallel.expected _ related left
    | some parallel =>
      have fewer := Alike.left_advance related
      have some := Alike.left_pos related next
      exact parallel (Alike.advance related) (by omega)

/-! ### Operators -/

theorem call_parallel (rules : r.Parallel R k r') (callee : Node) :
    Parallel R k k (call r callee) (call r' callee) :=
  .bind (itemsBefore_parallel (fun _ less => (rules.mono less).expression.parallel) _) fun _ =>
    .bind (.take_le _ _) fun _ => .pure _

theorem index_parallel (rules : r.Parallel R k r') (base : Node) :
    Parallel R k k (index r base) (index r' base) := by
  have more : Parallel R k k
      (r.expression >>= fun index => take .rightBracket .indexEnd >>= fun last =>
        pure (index, base.span.upTo last.span))
      (r'.expression >>= fun index => take .rightBracket .indexEnd >>= fun last =>
        pure (index, base.span.upTo last.span)) :=
    .bind rules.expression.parallel fun _ => .bind (.take_le _ _) fun _ => .pure _
  refine .look fun _ => .ite (.get fun s t related left => ?_) more
  rw [Alike.faultSpan related]
  exact Parallel.bind (.fail _ _) (fun _ => more) related left

theorem postfixBody_parallel (rules : r.Parallel R k r') :
    Parallel.Round R (k + 1) (postfixBody r) (postfixBody r') := by
  intro j below again again' further node
  have rules := rules.mono (Nat.le_of_lt_succ below)
  refine .takeIf (fun opening _ => .mono ?_ (Nat.le_refl _) (Nat.le_succ j)) (.pure node)
  dsimp only
  split
  · exact .bind (call_parallel rules node) further
  · refine .bind (index_parallel rules node) fun (index, span) => .takeIf_le fun equals => ?_
    cases equals with
    | none => exact further (.getIndex node index span)
    | some equals =>
      exact .bind (.operandOf equals rules.expression.parallel) fun _ => .pure _
  · exact .bind (.take_le _ _) fun _ => further _

theorem chained_parallel (rules : r.Parallel R k r') :
    Parallel R (k + 1) k (chained r) (chained r') := by
  rw [chained_eq, chained_eq]
  exact .bind (atom_parallel rules) fun node =>
    .loop _ _ ((postfixBody_parallel rules).mono (Nat.le_succ k)) node

theorem unary_advances (rules : r.Parallel R k r') : Advances R (k + 1) (unary r) (unary r') := by
  intro j below
  have rules := rules.mono (Nat.le_of_lt_succ below)
  refine .takeIf (fun sign _ => ?_) (chained_parallel rules)
  exact .bind (.operandOf sign rules.unary.parallel) fun _ => .pure _

section Chains

variable {operator? : TokenKind → Option BinaryOperator} {p : ParserOver σ Node}
  {q : ParserOver τ Node}

theorem chainBody_parallel (operand : Advances R k p q) :
    Parallel.Round R k (chainBody operator? p) (chainBody operator? q) := by
  intro j below again again' further left
  have operand := operand.mono (Nat.le_of_lt below)
  refine .takeIf (fun sign _ => .mono ?_ (Nat.le_refl _) (Nat.le_succ j)) (.pure left)
  exact .bind (.operandOf sign operand.parallel) fun _ => further _

theorem chain_advances (operand : Advances R k p q) :
    Advances R k (chain operator? p) (chain operator? q) := by
  intro j below
  rw [chain_eq, chain_eq]
  exact .bind (operand j below) fun left =>
    .loop _ _ ((chainBody_parallel operand).mono (Nat.le_of_lt below)) left

end Chains

theorem power_advances (rules : r.Parallel R k r') : Advances R (k + 1) (power r) (power r') :=
  chain_advances (unary_advances rules)

theorem product_advances (rules : r.Parallel R k r') : Advances R (k + 1) (product r) (product r') :=
  chain_advances (power_advances rules)

theorem comparison_advances (rules : r.Parallel R k r') :
    Advances R (k + 1) (comparison r) (comparison r') := by
  intro j below
  have less := rules.mono (Nat.le_of_lt_succ below)
  refine .takeIf (fun sign _ => ?_) (chain_advances (product_advances rules) j below)
  exact .bind (.operandOf sign less.comparison.parallel) fun _ => .pure _

theorem expression_advances (rules : r.Parallel R k r') :
    Advances R (k + 1) (expression r) (expression r') :=
  chain_advances (comparison_advances rules)

/-! ### Statements -/

theorem declaration_parallel (rules : r.Parallel R k r') (keyword : Token) :
    Parallel R k k (declaration r keyword) (declaration r' keyword) :=
  .bind (.take_le _ _) fun _ => .bind (.take_le _ _) fun _ =>
    .bind rules.expression.parallel fun _ => .pure _

theorem assignment_parallel (rules : r.Parallel R k r') (name sign : Token) :
    Parallel R k k (assignment r name sign) (assignment r' name sign) :=
  .bind (.operandOf sign rules.expression.parallel) fun _ => .pure _

theorem exitFunction_parallel (rules : r.Parallel R k r') (first : Span) :
    Parallel R k k (exitFunction r first) (exitFunction r' first) :=
  .look fun _ => .ite (.pure _) (.bind atBlockEnd_parallel fun _ =>
    .ite (.pure _) (.bind rules.expression.parallel fun _ => .pure _))

theorem importAlias_parallel : Parallel R k k importAlias importAlias := by
  refine .takeIf_le fun star => ?_
  cases star with
  | some star => exact .pure _
  | none => exact .bind (.take_le _ _) fun _ => .pure _

theorem importModule_parallel (rules : r.Parallel R k r') (first : Span) :
    Parallel R k k (importModule r first) (importModule r' first) := by
  refine .bind rules.expression.parallel fun name => .takeIf_le fun named => ?_
  cases named with
  | none => exact .pure _
  | some _ => exact .bind importAlias_parallel fun _ => .pure _

theorem statementOf?_parallel (rules : r.Parallel R k r') (token : Token) :
    ParallelIf R k (statementOf? r token) (statementOf? r' token) := by
  unfold statementOf?
  split
  · exact .some (declaration_parallel rules token)
  · exact .some (declaration_parallel rules token)
  · exact .some (exitFunction_parallel rules token.span)
  · exact .some (.pure _)
  · exact .some (.pure _)
  · exact .some (importModule_parallel rules token.span)
  · exact .none

theorem statement_advances (rules : r.Parallel R k r') :
    Advances R (k + 1) (statement r) (statement r') := by
  intro j below
  have less := rules.mono (Nat.le_of_lt_succ below)
  refine .get fun s t related left => ?_
  have fewer := Alike.left_advance related
  cases next : TokenSource.next? s with
  | none =>
    rw [← Alike.next? related, next]
    exact expression_advances rules j below related left
  | some token =>
    have rule := statementOf?_parallel less token
    have some := Alike.left_pos related next
    rw [← Alike.next? related, next]
    dsimp only
    rw [← Alike.sign? related next]
    generalize statementOf? r token = one, statementOf? r' token = other at rule
    cases rule with
    | some parallel => exact parallel (Alike.advance related) (by omega)
    | none =>
      cases assignmentSign? token s with
      | some sign =>
        have behind := Alike.advance related
        have fewest := Alike.left_advance behind
        exact assignment_parallel less token sign (Alike.advance behind) (by omega)
      | none => exact expression_advances rules j below related left

theorem next_parallel (rules : r.Parallel R k r') : (next r).Parallel R (k + 1) (next r') :=
  ⟨expression_advances rules, comparison_advances rules, unary_advances rules,
    statement_advances rules⟩

/-- Two unfoldings do the same until the tokens outnumber one of them, whatever stands below. -/
theorem iterate_next_parallel (base : RulesOver σ) (base' : RulesOver τ) {n m : Nat} (enough : k ≤ n)
    (plenty : k ≤ m) : (next^[n] base).Parallel R k (next^[m] base') := by
  induction k generalizing n m with
  | zero => exact ⟨nofun, nofun, nofun, nofun⟩
  | succ k ih =>
    obtain ⟨n, rfl⟩ := Nat.exists_eq_add_of_le' enough
    obtain ⟨m, rfl⟩ := Nat.exists_eq_add_of_le' plenty
    rw [← Nat.add_assoc, ← Nat.add_assoc, Function.iterate_succ_apply',
      Function.iterate_succ_apply']
    exact next_parallel (ih (Nat.le_add_left k n) (Nat.le_add_left k m))

theorem unfolded_eq (n : Nat) : (unfolded n : RulesOver σ) = next^[n] (unfolded 0) := by
  induction n with
  | zero => rfl
  | succ n ih => rw [Function.iterate_succ_apply', ← ih, unfolded]

theorem unfolded_parallel {n m : Nat} (enough : k ≤ n) (plenty : k ≤ m) :
    (unfolded n : RulesOver σ).Parallel R k (unfolded m : RulesOver τ) := by
  rw [unfolded_eq (σ := σ) n, unfolded_eq (σ := τ) m]
  exact iterate_next_parallel _ _ enough plenty

theorem programBody_parallel {p : ParserOver σ Node} {q : ParserOver τ Node}
    (statement : Advances R k p q) : Parallel.Round R k (programBody p) (programBody q) := by
  intro j below again again' further nodes
  refine .bind .skipNewlines fun _ => .look fun kind => ?_
  cases kind with
  | none => exact .pure _
  | some _ =>
    refine .bind (statementLine_advances statement j below) fun node => ?_
    exact (further (node :: nodes)).mono (Nat.le_refl _) (Nat.le_succ j)

end Grammar

end BasicScript
