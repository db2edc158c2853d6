import BasicScript.Proofs.Node.Reading
import BasicScript.Proofs.Node.Unbounded

/-! The levels of the grammar, from loose to tight. A rule of one level goes on with the operators
of its own level and of all that are tighter, so what a looser rule may end in front of, a tighter
one may, too. -/

set_option autoImplicit false

namespace BasicScript

/-- How tightly a node holds together. An assignment to an indexed place takes all to its right. -/
inductive Level where
  | assignment | sum | comparison | product | power | sign | chained | atom
  deriving DecidableEq

namespace Level

def rank : Level → Nat
  | assignment => 0
  | sum => 1
  | comparison => 2
  | product => 3
  | power => 4
  | sign => 5
  | chained => 6
  | atom => 7

def looser : Level → Level
  | assignment | sum => assignment
  | comparison => sum
  | product => comparison
  | power => product
  | sign => power
  | chained => sign
  | atom => chained

theorem rank_looser (p : Level) : p.looser.rank = p.rank - 1 := by cases p <;> rfl

theorem eq_of_rank {p q : Level} (same : p.rank = q.rank) : p = q := by
  cases p <;> cases q <;> first | rfl | cases same

def continues (level : Level) (kind : TokenKind) : Bool :=
  level.rank ≤ 1 && (Grammar.sumOperator? kind).isSome ||
  level.rank ≤ 2 && (Grammar.comparisonOperator? kind).isSome ||
  level.rank ≤ 3 && (Grammar.productOperator? kind).isSome ||
  level.rank ≤ 4 && (Grammar.powerOperator? kind).isSome ||
  level.rank ≤ 6 && (kind == .leftParen || kind == .leftBracket || kind == .dot || kind == .equal)

abbrev ends (level : Level) : Follow := fun h => h.any level.continues = false

def operator? : Level → TokenKind → Option BinaryOperator
  | sum => Grammar.sumOperator?
  | comparison => Grammar.comparisonOperator?
  | product => Grammar.productOperator?
  | power => Grammar.powerOperator?
  | assignment | sign | chained | atom => fun _ => none

theorem continues_operator {p : Level} {kind : TokenKind}
    (found : (p.operator? kind).isSome = true) : p.continues kind = true := by
  cases p <;> first | cases found | simp_all [operator?, continues, rank]

theorem continues_of_le {p q : Level} (tighter : p.rank ≤ q.rank) {kind : TokenKind}
    (continues : q.continues kind = true) : p.continues kind = true := by
  have within (n : Nat) : q.rank ≤ n → p.rank ≤ n := Nat.le_trans tighter
  simp only [Level.continues, Bool.or_assoc, Bool.or_eq_true, Bool.and_eq_true,
    decide_eq_true_eq] at continues ⊢
  exact continues.imp (.imp_left (within 1)) <| .imp (.imp_left (within 2)) <|
    .imp (.imp_left (within 3)) <| .imp (.imp_left (within 4)) (.imp_left (within 6))

theorem ends_of_le {p q : Level} (tighter : p.rank ≤ q.rank) {h : Option TokenKind}
    (ends : p.ends h) : q.ends h := by
  cases h with
  | none => rfl
  | some kind => exact Bool.eq_false_iff.mpr fun more =>
      Bool.eq_false_iff.mp ends (continues_of_le tighter more)

theorem ends_any {p : Level} {wanted : TokenKind → Bool}
    (known : ∀ kind, wanted kind = true → p.continues kind = true) {h : Option TokenKind}
    (ends : p.ends h) : h.any wanted = false := by
  cases h with
  | none => rfl
  | some kind => exact Bool.eq_false_iff.mpr fun want => Bool.eq_false_iff.mp ends (known kind want)

end Level

namespace Grammar

open BasicScript.Parser

def rule {σ : Type} [TokenSource σ] (r : RulesOver σ) : Level → ParserOver σ Node
  | .assignment | .sum => expression r
  | .comparison => comparison r
  | .product => product r
  | .power => power r
  | .sign => unary r
  | .chained => chained r
  | .atom => atom r

section Chains

variable (operator? : TokenKind → Option BinaryOperator) (operand : Parser Node)

/-- Behind `w` a chain of operands has put together `a`, and goes on. -/
def ChainReads (w : List Token) (a : Node) (F : Follow) : Prop :=
  ∀ (c : Cursor) (tail : List Token), F (first? tail) →
    chain operator? operand (c.before (w ++ tail)) = chainLoop operator? operand a (c.past w tail)

variable {operator? operand} {w v : List Token} {a b : Node} {F G : Follow}
  (unrolls : chainLoop operator? operand = chainBody operator? operand (chainLoop operator? operand))

namespace ChainReads

theorem first (reads : Reads operand w a F) : ChainReads operator? operand w a F := by
  intro c tail follows
  rw [chain_eq, bind_of_ok (reads c tail follows)]

include unrolls in
theorem next (left : ChainReads operator? operand w a F) (sign : Token) {operator : BinaryOperator}
    (found : operator? sign.kind = some operator) (follows : F (some sign.kind))
    (right : Reads operand v b G) :
    ChainReads operator? operand (w ++ sign :: v) (.infixed a operator b) G := by
  intro c tail ends
  have taken : takeIf? (fun kind => (operator? kind).isSome) (c.past w (sign :: v ++ tail)) =
      .ok (some sign) (c.past (w ++ [sign]) (v ++ tail)) := by
    rw [← Cursor.past_past c w (sign :: v ++ tail)]
    exact takeIf?_of_wanted (by simp [found])
  have operand := right.operandOf sign (c.past (w ++ [sign]) (v ++ tail)) tail ends
  rw [Cursor.past_before, Cursor.past_past, List.append_assoc] at operand
  rw [List.append_assoc, left c (sign :: v ++ tail) follows, congrFun unrolls a, chainBody, bind_of_ok taken]
  dsimp only
  rw [bind_of_ok operand, found]
  rfl

include unrolls in
theorem done (left : ChainReads operator? operand w a F)
    (ends : ∀ h, G h → F h ∧ h.any (fun kind => (operator? kind).isSome) = false) :
    Reads (chain operator? operand) w a G := by
  intro c tail follows
  obtain ⟨inside, other⟩ := ends _ follows
  have missed : takeIf? (fun kind => (operator? kind).isSome) (c.past w tail) =
      .ok none (c.past w tail) := takeIf?_of_other other
  rw [left c tail inside, congrFun unrolls a, chainBody, bind_of_ok missed]
  rfl

end ChainReads

end Chains

/-! ### From one level to the next looser one -/

theorem atomOf?_sign {r : Rules} {token : Token} (sign : (signOperator? token.kind).isSome = true) :
    atomOf? r token = none := by
  unfold atomOf?
  cases kind : token.kind <;> first | rfl | simp [signOperator?, kind] at sign

theorem atomOf?_not {r : Rules} {token : Token} (negates : token.kind = .keyword .not) :
    atomOf? r token = none := by
  simp only [atomOf?, negates]

theorem atom_of_missing {r : Rules} {c : Cursor}
    (missing : ∀ token, c.rest.head? = some token → atomOf? r token = none) :
    atom r c = expected .expression c := by
  obtain ⟨taken, previous, _ | ⟨token, rest⟩⟩ := c
  · rfl
  · exact atom_of_none (missing token rfl)

/-- Where no atom begins, no chain of operands does. -/
theorem chained_fails {r : Rules} {c : Cursor}
    (missing : ∀ token, c.rest.head? = some token → atomOf? r token = none) :
    ∃ d, chained r c = .error d c :=
  ⟨_, bind_of_error ((atom_of_missing missing).trans (expected_eq _ c))⟩

theorem chain_fails {operator? : TokenKind → Option BinaryOperator} {operand : Parser Node}
    {c : Cursor} (fails : ∃ d, operand c = .error d c) :
    ∃ d, chain operator? operand c = .error d c := by
  obtain ⟨d, fails⟩ := fails
  exact ⟨d, bind_of_error fails⟩

theorem unary_fails {r : Rules} {c : Cursor}
    (unsigned : c.kind?.any (fun kind => (signOperator? kind).isSome) = false)
    (missing : ∀ token, c.rest.head? = some token → atomOf? r token = none) :
    ∃ d, unary r c = .error d c := by
  rw [unary, bind_of_ok (takeIf?_of_other unsigned)]
  exact chained_fails missing

/-- Only a comparison starts with `NOT`. -/
theorem product_fails {r : Rules} {c : Cursor} (negates : c.kind? = some (.keyword .not)) :
    ∃ d, product r c = .error d c := by
  refine chain_fails (chain_fails (unary_fails ?_ fun token head => atomOf?_not ?_))
  · rw [negates]
    rfl
  · rw [Cursor.kind?, head] at negates
    exact Option.some.inj negates

variable {w : List Token} {a : Node} {F G : Follow}

theorem reads_unary {r : Rules} (reads : Reads (chained r) w a F) : Reads (unary r) w a F := by
  refine reads.missed fun tail follows => Bool.eq_false_iff.mpr fun sign => ?_
  obtain ⟨d, fails⟩ := chained_fails (r := r) (c := Cursor.before ⟨0, none, []⟩ (w ++ tail))
    fun token head => atomOf?_sign (by
      rw [first?, show (w ++ tail).head? = some token from head] at sign
      exact sign)
  exact nomatch (reads _ tail follows).symm.trans fails

theorem reads_comparison {r : Rules} (reads : Reads (chain comparisonOperator? (product r)) w a F) :
    Reads (comparison r) w a F := by
  refine reads.missed fun tail follows => Bool.eq_false_iff.mpr fun negates => ?_
  have negates : first? (w ++ tail) = some (.keyword .not) := by
    cases found : first? (w ++ tail) with
    | none => simp [found] at negates
    | some kind => rw [found] at negates; exact congrArg some (beq_iff_eq.mp negates)
  have fails := product_fails (r := r) (c := Cursor.before ⟨0, none, []⟩ (w ++ tail)) negates
  obtain ⟨d, fails⟩ : ∃ d, chain comparisonOperator? (product r) _ = .error d _ := chain_fails fails
  exact nomatch (reads _ tail follows).symm.trans fails

theorem postfixLoop_nothing (a : Node) :
    Reads (postfixLoop unbounded a) [] a Level.chained.ends := by
  rw [postfixLoop_eq]
  refine (Reads.pure a _).missed fun tail follows => Level.ends_any (fun kind want => ?_) follows
  simp only [Bool.or_eq_true] at want
  simp only [Level.continues, Bool.or_eq_true, Bool.and_eq_true]
  exact .inr ⟨rfl, .inl want⟩

theorem reads_chained (reads : Reads (atom unbounded) w a F)
    (ends : ∀ h, F h → Level.chained.ends h) : Reads (chained unbounded) w a F := by
  rw [chained_eq]
  have := reads.bind ((postfixLoop_nothing a).mono ends) fun tail follows => follows
  rwa [List.append_nil] at this

theorem rule_takes {g : Relocation} (p : Level) (k : Nat) :
    Takes g k (Node.relocate g) (rule unbounded p) (rule unbounded p) := by
  have track := unbounded_track g k
  cases p with
  | assignment | sum => exact (expression_takes track).mono (Nat.le_succ k)
  | comparison => exact (comparison_takes track).mono (Nat.le_succ k)
  | product => exact (product_takes track).mono (Nat.le_succ k)
  | power => exact (power_takes track).mono (Nat.le_succ k)
  | sign => exact (unary_takes track).mono (Nat.le_succ k)
  | chained => exact fun j below => chained_tracks (track.mono (Nat.le_of_lt below))
  | atom => exact fun j below => atom_tracks (track.mono (Nat.le_of_lt below))

theorem rule_unrolls (p : Level) (operator? : TokenKind → Option BinaryOperator) :
    chainLoop operator? (rule unbounded p) =
      chainBody operator? (rule unbounded p) (chainLoop operator? (rule unbounded p)) :=
  chainLoop_eq (rule_takes p)

theorem reads_chain {p q : Level} (reads : Reads (rule unbounded q) w a F)
    (ends : ∀ h, F h → h.any (fun kind => (p.operator? kind).isSome) = false) :
    Reads (chain p.operator? (rule unbounded q)) w a F :=
  (ChainReads.first reads).done (rule_unrolls q p.operator?) fun _ follows => ⟨follows, ends _ follows⟩

theorem reads_looser {p : Level} (reads : Reads (rule unbounded p) w a F)
    (ends : ∀ h, F h → p.looser.ends h) : Reads (rule unbounded p.looser) w a F := by
  have quiet (h : Option TokenKind) (follows : F h) :=
    Level.ends_any (fun _ => Level.continues_operator) (ends h follows)
  cases p with
  | assignment | sum => exact reads
  | comparison => exact reads_chain (p := .sum) reads quiet
  | product => exact reads_comparison (reads_chain (p := .comparison) reads quiet)
  | power => exact reads_chain (p := .product) reads quiet
  | sign => exact reads_chain (p := .power) reads quiet
  | chained => exact reads_unary reads
  | atom => exact reads_chained reads ends

/-- What a tight rule reads, a looser one reads, too. -/
theorem reads_of_le {p q : Level} (reads : Reads (rule unbounded q) w a F)
    (tighter : p.rank ≤ q.rank) (ends : ∀ h, F h → p.ends h) : Reads (rule unbounded p) w a F := by
  induction distance : q.rank - p.rank generalizing q with
  | zero =>
    obtain rfl : p = q := Level.eq_of_rank (by omega)
    exact reads
  | succ n ih =>
    have still : p.rank ≤ q.looser.rank := by
      rw [Level.rank_looser]
      omega
    refine ih (reads_looser reads fun h follows => Level.ends_of_le still (ends h follows)) still ?_
    rw [Level.rank_looser]
    omega

theorem reads_atom {r : Rules} {p : Parser Node} (token : Token) (found : atomOf? r token = some p)
    (reads : Reads p w a F) : Reads (atom r) (token :: w) a F := by
  intro c tail follows
  have rest := reads (c.past [token] (w ++ tail)) tail follows
  rw [Cursor.past_before, Cursor.past_past] at rest
  exact (atom_of_rule found).trans rest

/-- A name by itself is read as an access by every rule. -/
theorem reads_name {token : Token} (name : token.kind = .identifier) (p : Level) :
    Reads (rule unbounded p) [token] (.access token.lexeme token.span) p.ends := by
  have found : atomOf? unbounded token = some (pure (.access token.lexeme token.span)) := by
    simp only [atomOf?, name]
  exact reads_of_le (q := .atom) (reads_atom token found (.pure _ _)) (by cases p <;> decide) fun _ => id

end Grammar

end BasicScript
