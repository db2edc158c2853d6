import BasicScript.Proofs.Node.Reading

/-! How far a parser looks. What it does is decided by the tokens it has read and the kind of the
next one: either it has a value, and has the same value in front of whatever may follow, or it is
stuck at the next token whatever comes behind that, and what it has read can be completed. -/

set_option autoImplicit false

namespace BasicScript

/-- Whether a fault is only found behind the token that it is about. -/
def Diagnostic.overrun (d : Diagnostic) : Nat :=
  match d.fault with
  | .duplicateParameter _ | .invalidLiteral _ => 1
  | _ => 0

/-- Behind `w` the parser cannot go on with `tail`, whatever comes behind its first token. -/
structure Stuck {α : Type} (p : Parser α) (c : Cursor) (w tail : List Token) (d : Diagnostic) :
    Prop where
  room : d.overrun ≤ tail.length
  span : d.span = (c.past w tail).faultSpan
  fails : ∀ other : List Token, other.head? = tail.head? → p (c.before (w ++ other)) =
    .error d (c.past (w ++ other.take d.overrun) (other.drop d.overrun))

/-- More tokens behind `w` make something that the parser reads in front of all that is in `F`. If
nothing has been read so far, they start with something in `B`. -/
def Completable {α : Type} (B F : Follow) (p : Parser α) (w : List Token) : Prop :=
  ∃ more a, (∀ token ∈ more, token.kind ≠ .eof) ∧ Reads p (w ++ more) a F ∧
    (w = [] → ∀ tail, F (first? tail) → B (first? (more ++ tail)))

/-- What the parser does at `c` is decided by what it has read there and by the next token. -/
inductive Decides {α : Type} (B F : Follow) (p : Parser α) (c : Cursor) : Prop
  | value (w tail : List Token) (a : α) (splits : c.rest = w ++ tail)
    (reads : Reads p w a fun h => h = first? tail ∨ F h) (silent : w = [] → ∀ h, F h → B h)
  | stop (w tail : List Token) (d : Diagnostic) (splits : c.rest = w ++ tail)
    (stuck : Stuck p c w tail d) (completes : Completable B F p w)

/-- A parser that decides as long as fewer than `k` tokens are left, and that can have a value. -/
structure Predictive {α : Type} (k : Nat) (B F : Follow) (p : Parser α) : Prop where
  decides : ∀ c : Cursor, c.rest.length < k → Decides B F p c
  possible : Completable B F p []

open BasicScript.Parser

variable {α β : Type} {B F B' F' G : Follow} {p : Parser α} {r : α → Parser β} {c : Cursor}
  {w v tail : List Token} {d : Diagnostic} {k : Nat}

namespace Stuck

theorem here (stuck : Stuck p c w tail d) (token : Token) (first : tail.head? = some token) :
    d.span = token.span := by
  obtain ⟨rest, rfl⟩ := List.head?_eq_some_iff.mp first
  exact stuck.span

theorem apply (stuck : Stuck p c w tail d) (splits : c.rest = w ++ tail) :
    p c = .error d (c.past (w ++ tail.take d.overrun) (tail.drop d.overrun)) := by
  have := stuck.fails tail rfl
  rwa [← splits, Cursor.before_rest] at this

theorem bind (stuck : Stuck p c w tail d) : Stuck (p >>= r) c w tail d :=
  ⟨stuck.room, stuck.span, fun other same => bind_of_error (stuck.fails other same)⟩

/-- A part that is stuck behind what the first part has read. -/
theorem behind {a : α} (reads : Reads p w a F) (stuck : Stuck (r a) (c.past w (v ++ tail)) v tail d)
    (meet : ∀ other : List Token, other.head? = tail.head? → F (first? (v ++ other))) :
    Stuck (p >>= r) c (w ++ v) tail d := by
  refine ⟨stuck.room, stuck.span.trans (by rw [Cursor.past_past]), fun other same => ?_⟩
  have fails := stuck.fails other same
  rw [Cursor.past_before, Cursor.past_past, ← List.append_assoc] at fails
  rw [List.append_assoc, bind_of_ok (reads c (v ++ other) (meet other same)), fails]

end Stuck

namespace Completable

theorem nil {a : α} (reads : Reads p [] a F) (begins : ∀ h, F h → B h) : Completable B F p [] :=
  ⟨[], a, List.forall_mem_nil _, reads, fun _ _ follows => begins _ follows⟩

theorem mono (completes : Completable B F p w) (more : ∀ h, B h → B' h) (less : ∀ h, F' h → F h) :
    Completable B' F' p w := by
  obtain ⟨rest, a, free, reads, begins⟩ := completes
  exact ⟨rest, a, free, reads.mono less, fun empty tail follows =>
    more _ (begins empty tail (less _ follows))⟩

theorem bind (first : Completable B F p w) (rest : ∀ a, Completable B' F' (r a) [])
    (meet : ∀ h, B' h → F h) : Completable B F' (p >>= r) w := by
  obtain ⟨some, a, free, reads, begins⟩ := first
  obtain ⟨others, b, free', reads', begins'⟩ := rest a
  have meets (tail : List Token) (follows : F' (first? tail)) : F (first? (others ++ tail)) :=
    meet _ (begins' rfl tail follows)
  refine ⟨some ++ others, b, ?_, ?_, fun empty tail follows => ?_⟩
  · intro token inside
    exact (List.mem_append.mp inside).elim (free token) (free' token)
  · rw [← List.append_assoc]
    exact reads.bind reads' meets
  · rw [List.append_assoc]
    exact begins empty _ (meets tail follows)

theorem behind {a : α} (reads : Reads p w a F) (rest : Completable B' F' (r a) v)
    (meet : ∀ tail, v ≠ [] → F (first? (v ++ tail)))
    (begins : ∀ h, B' h → F h) (silent : w = [] → ∀ h, B' h → B h) :
    Completable B F' (p >>= r) (w ++ v) := by
  obtain ⟨more, b, free, reads', begins'⟩ := rest
  have meets (tail : List Token) (follows : F' (first? tail)) :
      F (first? ((v ++ more) ++ tail)) := by
    by_cases empty : v = []
    · subst empty
      exact begins _ (begins' rfl tail follows)
    · rw [List.append_assoc]
      exact meet _ empty
  refine ⟨more, b, free, ?_, fun empty tail follows => ?_⟩
  · rw [List.append_assoc]
    exact reads.bind reads' meets
  · obtain ⟨rfl, rfl⟩ := List.append_eq_nil_iff.mp empty
    exact silent rfl _ (begins' rfl tail follows)

theorem switch {q : Parser α} (same : Follow) (completes : Completable B F q [])
    (agree : ∀ c : Cursor, same c.kind? → p c = q c) (later : ∀ h, B h → same h) :
    Completable B F p [] := by
  obtain ⟨more, a, free, reads, begins⟩ := completes
  exact ⟨more, a, free, reads.switch same agree fun tail follows => later _ (begins rfl tail follows),
    begins⟩

theorem operandOf (sign : Token) (completes : Completable B F p w) :
    Completable B F (Parser.operandOf sign p) w := by
  obtain ⟨more, a, free, reads, begins⟩ := completes
  exact ⟨more, a, free, reads.operandOf sign, begins⟩

end Completable

namespace Decides

theorem pure (a : α) (begins : ∀ h, F h → B h) : Decides B F (Pure.pure a) c :=
  .value [] c.rest a rfl (.pure a _) fun _ => begins

theorem mono (decides : Decides B F p c) (more : ∀ h, B h → B' h) (less : ∀ h, F' h → F h) :
    Decides B' F' p c := by
  cases decides with
  | value w tail a splits reads silent =>
    refine .value w tail a splits (reads.mono fun h => Or.imp_right (less h)) ?_
    exact fun empty h follows => more h (silent empty h (less h follows))
  | stop w tail d splits stuck completes =>
    exact .stop w tail d splits stuck (completes.mono more less)

/-- Where nothing has been read, anything that can be completed may begin. -/
theorem rebegin (decides : Decides B F p c) (completes : Completable B' F p [])
    (begins : ∀ h, F h → B' h) : Decides B' F p c := by
  cases decides with
  | value w tail a splits reads silent =>
    exact .value w tail a splits reads fun _ => begins
  | stop w tail d splits stuck other =>
    refine .stop w tail d splits stuck ?_
    by_cases empty : w = []
    · subst empty
      exact completes
    · obtain ⟨more, a, free, reads, _⟩ := other
      exact ⟨more, a, free, reads, fun none => absurd none empty⟩

/-- What is decided behind what the first part has read. -/
theorem behind {a : α} (splits : c.rest = w ++ tail)
    (reads : Reads p w a fun h => h = first? tail ∨ F h) (rest : Decides B' F' (r a) (c.past w tail))
    (meet : ∀ h, B' h → F h) (silent : w = [] → ∀ h, B' h → B h) : Decides B F' (p >>= r) c := by
  -- what follows the first part is its tail, unless the second part reads nothing of it
  have hidden (v rest other : List Token) (found : tail = v ++ rest) (some : v ≠ []) :
      first? (v ++ other) = first? tail := by
    rw [found]
    exact first?_append some other rest
  cases rest with
  | value v rest b found reads' silent' =>
    have found : tail = v ++ rest := found
    refine .value (w ++ v) rest b (by rw [splits, found, List.append_assoc]) ?_ ?_
    · refine reads.bind reads' fun other follows => ?_
      by_cases empty : v = []
      · subst empty
        exact follows.imp (fun same => by rw [found]; exact same)
          fun inside => meet _ (silent' rfl _ inside)
      · exact .inl (hidden v rest other found empty)
    · intro empty h follows
      obtain ⟨rfl, rfl⟩ := List.append_eq_nil_iff.mp empty
      exact silent rfl h (silent' rfl h follows)
  | stop v rest d found stuck completes =>
    have found : tail = v ++ rest := found
    refine .stop (w ++ v) rest d (by rw [splits, found, List.append_assoc]) ?_ ?_
    · refine .behind reads (by rwa [← found]) fun other same => .inl ?_
      by_cases empty : v = []
      · subst empty
        simp only [first?, List.nil_append, found, same]
      · exact hidden v rest other found empty
    · exact .behind reads completes (fun other some => .inl (hidden v rest other found some))
        (fun h inside => .inr (meet h inside)) silent

theorem bind (first : Decides B F p c)
    (rest : ∀ w tail a, c.rest = w ++ tail → (w = [] → ∀ h, F h → B h) →
      Decides B' F' (r a) (c.past w tail))
    (possible : ∀ a, Completable B' F' (r a) []) (meet : ∀ h, B' h → F h) :
    Decides B F' (p >>= r) c := by
  cases first with
  | stop w tail d splits stuck completes =>
    exact .stop w tail d splits stuck.bind (completes.bind possible meet)
  | value w tail a splits reads silent =>
    exact .behind splits reads (rest w tail a splits silent) meet fun empty h inside =>
      silent empty h (meet h inside)

theorem switch {q : Parser α} (same : Follow) (decides : Decides B F q c)
    (agree : ∀ c : Cursor, same c.kind? → p c = q c) (now : same c.kind?)
    (later : ∀ h, B h → same h) : Decides B F p c := by
  have hidden {w tail : List Token} (other : List Token) (splits : c.rest = w ++ tail)
      (some : w ≠ []) : same (first? (w ++ other)) := by
    rw [first?_append some other tail, ← splits]
    exact now
  cases decides with
  | value w tail a splits reads silent =>
    refine .value w tail a splits (reads.switch same agree fun other follows => ?_) silent
    by_cases empty : w = []
    · subst empty
      have now : same (first? tail) := by rw [← List.nil_append tail, ← splits]; exact now
      exact follows.elim (fun equal => equal ▸ now) fun inside => later _ (silent rfl _ inside)
    · exact hidden other splits empty
  | stop w tail d splits stuck completes =>
    obtain ⟨more, a, free, reads, begins⟩ := completes
    refine .stop w tail d splits ⟨stuck.room, stuck.span, fun other equal => ?_⟩
      ⟨more, a, free, reads.switch same agree fun other follows => ?_, begins⟩
    · rw [← stuck.fails other equal]
      refine agree _ ?_
      by_cases empty : w = []
      · subst empty
        have now : same (first? tail) := by rw [← List.nil_append tail, ← splits]; exact now
        show same (first? other)
        rwa [first?, equal]
      · exact hidden other splits empty
    · by_cases empty : w = []
      · subst empty
        exact later _ (begins rfl other follows)
      · rw [List.append_assoc]
        exact hidden _ splits empty

theorem faultSpan_before {other : List Token} (same : other.head? = c.rest.head?) :
    (c.before other).faultSpan = c.faultSpan := by
  obtain ⟨taken, previous, rest⟩ := c
  cases rest with
  | nil =>
    obtain rfl := List.head?_eq_none_iff.mp same
    rfl
  | cons token rest =>
    obtain ⟨others, rfl⟩ := List.head?_eq_some_iff.mp same
    rfl

/-- A fault in front of the next token, for all lists that start with that token. -/
theorem fault (fault : Fault) (exact : (⟨fault, c.faultSpan, [], []⟩ : Diagnostic).overrun = 0)
    (fails : ∀ other : List Token, other.head? = c.rest.head? →
      p (c.before other) = .error ⟨fault, (c.before other).faultSpan, [], []⟩ (c.before other))
    (completes : Completable B F p []) : Decides B F p c := by
  refine .stop [] c.rest ⟨fault, c.faultSpan, [], []⟩ rfl ⟨?_, ?_, ?_⟩ completes
  · rw [exact]
    exact Nat.zero_le _
  · rw [Cursor.past_nil, Cursor.before_rest]
  · intro other same
    rw [exact, List.nil_append, fails other same, faultSpan_before same]
    simp

theorem expects (what : Expected) (fails : ∀ other : List Token, other.head? = c.rest.head? →
    p (c.before other) = Parser.expected what (c.before other)) (completes : Completable B F p []) :
    Decides B F p c := by
  refine .fault (.expected what c.describe) rfl (fun other same => ?_) completes
  have words : (c.before other).describe = c.describe :=
    congrArg (fun head? => (head?.map Token.describe).getD "end of file") same
  rw [fails other same, Parser.expected_eq, words]

theorem expected (what : Expected) (same : Follow)
    (agree : ∀ c : Cursor, same c.kind? → p c = Parser.expected what c) (now : same c.kind?)
    (completes : Completable B F p []) : Decides B F p c := by
  refine .expects what (fun other equal => agree _ ?_) completes
  have kind : (c.before other).kind? = c.kind? := congrArg (Option.map Token.kind) equal
  exact kind ▸ now

variable {wanted : TokenKind → Bool} {s : Option Token → Parser β} {token : Token}
  {rest : List Token}

/-- What is decided behind tokens that have been looked at anyway. -/
theorem prefixed {q : Parser α} (some : w ≠ []) (splits : c.rest = w ++ tail)
    (agree : ∀ (c : Cursor) (tail : List Token), p (c.before (w ++ tail)) = q (c.past w tail))
    (decides : Decides B' F q (c.past w tail)) : Decides B F p c := by
  have nonempty (v : List Token) : w ++ v ≠ [] := fun none => some (List.append_eq_nil_iff.mp none).1
  have behind {v : List Token} {a : α} {G : Follow} (reads : Reads q v a G) : Reads p (w ++ v) a G := by
    intro c tail follows
    rw [List.append_assoc, agree, ← Cursor.past_past c w (v ++ tail), ← Cursor.past_before c w _ (v ++ tail)]
    exact reads (c.past w (v ++ tail)) tail follows
  cases decides with
  | value v rest a found reads silent =>
    have found : tail = v ++ rest := found
    exact .value (w ++ v) rest a (by rw [splits, found, List.append_assoc]) (behind reads)
      fun none => absurd none (nonempty v)
  | stop v rest d found stuck completes =>
    have found : tail = v ++ rest := found
    obtain ⟨more, a, free, reads, _⟩ := completes
    refine .stop (w ++ v) rest d (by rw [splits, found, List.append_assoc])
      ⟨stuck.room, stuck.span.trans (by rw [Cursor.past_past]), fun other same => ?_⟩
      ⟨more, a, free, by rw [List.append_assoc]; exact behind reads, fun none => absurd none (nonempty v)⟩
    have fails := stuck.fails other same
    rw [Cursor.past_before, Cursor.past_past, ← List.append_assoc] at fails
    rw [List.append_assoc, agree, fails]

/-- Behind a token that has been taken, anything may begin. -/
theorem behindToken {a : α} (splits : c.rest = token :: rest)
    (reads : Reads p [token] a fun _ => True) (decides : Decides B' F (r a) (c.past [token] rest)) :
    Decides B F (p >>= r) c :=
  .prefixed (w := [token]) (by simp) splits (fun c tail => bind_of_ok (reads c tail trivial)) decides

theorem found (splits : c.rest = token :: rest) (want : wanted token.kind = true)
    (decides : Decides B' F (s (some token)) (c.past [token] rest)) :
    Decides B F (takeIf? wanted >>= s) c :=
  behindToken splits (.takeIf? want _) decides

theorem missed (decides : Decides B F (s none) c) (now : c.kind?.any wanted = false)
    (later : ∀ h, B h → h.any wanted = false) : Decides B F (takeIf? wanted >>= s) c :=
  decides.switch (·.any wanted = false) (fun _ other => bind_of_ok (takeIf?_of_other other)) now later

theorem look {r : Option TokenKind → Parser β} (decides : Decides B F (r c.kind?) c)
    (same : ∀ h, B h → r h = r c.kind?) : Decides B F (peekKind? >>= r) c :=
  decides.switch (fun h => r h = r c.kind?) (fun c' alike => by
    rw [bind_of_ok (peekKind?_eq c'), alike]) rfl same

theorem skip {s : Unit → Parser β} (decides : Decides B F (s ()) c.skipNewlines)
    (begins : ∀ h, B h → h ≠ some .newline) : Decides B F (skipNewlines >>= s) c := by
  let newline (token : Token) : Bool := token.kind == .newline
  have splits : c.rest = c.rest.takeWhile newline ++ c.rest.dropWhile newline :=
    List.takeWhile_append_dropWhile.symm
  have newlines (token : Token) (inside : token ∈ c.rest.takeWhile newline) :
      token.kind = .newline := beq_iff_eq.mp (List.all_eq_true.mp List.all_takeWhile token inside)
  have other : first? (c.rest.dropWhile newline) ≠ some .newline := by
    intro first
    obtain ⟨token, head, kind⟩ := Option.map_eq_some_iff.mp first
    have := List.head?_dropWhile_not newline c.rest
    rw [head] at this
    simp [newline, kind] at this
  have reads := Reads.skipNewlines newlines
  have skipped : c.skipNewlines = c.past (c.rest.takeWhile newline) (c.rest.dropWhile newline) := by
    have := reads.apply splits other
    rw [skipNewlines_eq] at this
    injection this
  rw [skipped] at decides
  exact .behind splits (reads.mono fun h => Or.rec (· ▸ other) id) decides begins fun _ _ => id

theorem overrun_le_one (d : Diagnostic) : d.overrun ≤ 1 := by
  unfold Diagnostic.overrun
  split
  · exact Nat.le_refl 1
  · exact Nat.le_refl 1
  · exact Nat.zero_le 1

theorem operandOf (sign : Token) (decides : Decides B F p c) :
    Decides B F (Parser.operandOf sign p) c := by
  cases decides with
  | value w tail a splits reads silent => exact .value w tail a splits (reads.operandOf sign) silent
  | stop w tail d splits stuck completes =>
    by_cases unmoved : w = [] ∧ d.overrun = 0
    · obtain ⟨rfl, exact⟩ := unmoved
      refine .stop [] tail (operandFault sign d (c.before tail)) splits
        ⟨Nat.zero_le _, stuck.span, fun other same => ?_⟩ (completes.operandOf sign)
      have fails := stuck.fails other same
      rw [exact, List.take_zero, List.drop_zero, List.append_nil, Cursor.past_nil] at fails
      have words : (c.before other).describe = (c.before tail).describe :=
        congrArg (fun head? => (head?.map Token.describe).getD "end of file") same
      have still : (c.before other).taken = (c.before ([] ++ other)).taken := rfl
      rw [operandOf_of_error fails, if_pos still, operandFault, words]
      simp [operandFault, Diagnostic.overrun]
    · refine .stop w tail d splits ⟨stuck.room, stuck.span, fun other same => ?_⟩
        (completes.operandOf sign)
      rw [operandOf_of_error (stuck.fails other same), if_neg]
      -- the cursor moved: over what has been read, or else over the token that the fault is about
      have enough : d.overrun ≤ other.length := by
        cases tail with
        | nil => exact Nat.le_trans stuck.room (Nat.zero_le _)
        | cons token rest =>
          obtain ⟨others, rfl⟩ := List.head?_eq_some_iff.mp same
          exact Nat.le_trans (overrun_le_one d) (Nat.le_add_left 1 _)
      intro still
      have still : c.taken + (w ++ other.take d.overrun).length = c.taken := still
      rw [List.length_append, List.length_take, Nat.min_eq_left enough] at still
      exact unmoved ⟨List.length_eq_zero_iff.mp (by omega), by omega⟩

end Decides

namespace Predictive

theorem mono {j : Nat} (predictive : Predictive k B F p) (less : j ≤ k) (more : ∀ h, B h → B' h)
    (fewer : ∀ h, F' h → F h) : Predictive j B' F' p :=
  ⟨fun c left => (predictive.decides c (Nat.lt_of_lt_of_le left less)).mono more fewer,
    predictive.possible.mono more fewer⟩

theorem less {j : Nat} (predictive : Predictive k B F p) (less : j ≤ k) : Predictive j B F p :=
  predictive.mono less (fun _ => id) fun _ => id

/-- Where something has been read before, it does not matter what begins. -/
theorem inside (predictive : Predictive k B F p) : Predictive k (fun _ => True) F p :=
  predictive.mono (Nat.le_refl k) (fun _ _ => trivial) fun _ => id

theorem pure (a : α) : Predictive k F F (Pure.pure a) :=
  ⟨fun _ _ => .pure a fun _ => id, .nil (.pure a F) fun _ => id⟩

theorem bind (first : Predictive k B F p) (rest : ∀ a, Predictive k B' F' (r a))
    (meet : ∀ h, B' h → F h) : Predictive k B F' (p >>= r) := by
  refine ⟨fun c left => ?_, first.possible.bind (fun a => (rest a).possible) meet⟩
  refine (first.decides c left).bind (fun w tail a splits _ => ?_) (fun a => (rest a).possible) meet
  refine (rest a).decides _ (Nat.lt_of_le_of_lt ?_ left)
  rw [splits, List.length_append]
  exact Nat.le_add_left _ _

/-- Behind a part that cannot be without a token, one token less may be left. -/
theorem bind_taken {h : Option TokenKind} (first : Predictive (k + 1) B F p)
    (rest : ∀ a, Predictive k B' F' (r a)) (meet : ∀ h, B' h → F h) (follows : F h)
    (other : ¬B h) : Predictive (k + 1) B F' (p >>= r) := by
  refine ⟨fun c left => ?_, first.possible.bind (fun a => (rest a).possible) meet⟩
  refine (first.decides c left).bind (fun w tail a splits silent => ?_)
    (fun a => (rest a).possible) meet
  refine (rest a).decides _ ?_
  have some : w ≠ [] := fun empty => other (silent empty h follows)
  have := List.length_pos_iff.mpr some
  rw [splits, List.length_append] at left
  show tail.length < k
  omega

variable {wanted : TokenKind → Bool} {s : Option Token → Parser β}

theorem option (found : ∀ token, wanted token.kind = true → Predictive k B' F (s (some token)))
    (other : Predictive (k + 1) B F (s none)) (avoids : ∀ h, B h → h.any wanted = false) :
    Predictive (k + 1) B F (takeIf? wanted >>= s) := by
  refine ⟨fun c left => ?_, other.possible.switch (·.any wanted = false)
    (fun _ other => bind_of_ok (takeIf?_of_other other)) avoids⟩
  cases wants : c.kind?.any wanted with
  | false => exact (other.decides c left).missed wants avoids
  | true =>
    obtain ⟨taken, previous, _ | ⟨token, rest⟩⟩ := c
    · cases wants
    · exact .found rfl wants ((found token wants).decides _ (Nat.lt_of_succ_lt_succ left))

theorem option_le (found : ∀ token, wanted token.kind = true → Predictive k B' F (s (some token)))
    (other : Predictive k B F (s none)) (avoids : ∀ h, B h → h.any wanted = false) :
    Predictive k B F (takeIf? wanted >>= s) := by
  refine ⟨fun c left => ?_, other.possible.switch (·.any wanted = false)
    (fun _ other => bind_of_ok (takeIf?_of_other other)) avoids⟩
  cases k with
  | zero => exact absurd left (Nat.not_lt_zero _)
  | succ k =>
    refine (option (k := k) (fun token want => (found token want).less (Nat.le_succ k)) other
      avoids).decides c left

section Choices

variable {q m : Parser β} {r : Option TokenKind → Parser β}

theorem choice (first : Predictive k B F m) (second : Predictive k B' F q) (t : Follow)
    (yes : ∀ h, t h → r h = m) (no : ∀ h, ¬t h → r h = q) (holds : ∀ h, B h → t h)
    (fails : ∀ h, B' h → ¬t h) (silent : ∀ h, F h → B h) :
    Predictive k B F (peekKind? >>= r) := by
  have possible : Completable B F (peekKind? >>= r) [] :=
    first.possible.switch t (fun c here => by rw [bind_of_ok (peekKind?_eq c), yes _ here]) holds
  refine ⟨fun c left => ?_, possible⟩
  by_cases here : t c.kind?
  · refine .look ?_ fun h inside => by rw [yes h (holds h inside), yes _ here]
    rw [yes _ here]
    exact first.decides c left
  · have decides : Decides B' F (r c.kind?) c := by
      rw [no _ here]
      exact second.decides c left
    exact (decides.look fun h inside => by rw [no _ here, no h (fails h inside)]).rebegin possible
      silent

/-- The next token says whether the parser goes on. -/
theorem only (first : Predictive k B F m) (t : Follow) (what : Expected)
    (yes : ∀ h, t h → r h = m) (no : ∀ h, ¬t h → r h = Parser.expected what)
    (holds : ∀ h, B h → t h) : Predictive k B F (peekKind? >>= r) := by
  have possible : Completable B F (peekKind? >>= r) [] :=
    first.possible.switch t (fun c here => by rw [bind_of_ok (peekKind?_eq c), yes _ here]) holds
  refine ⟨fun c left => ?_, possible⟩
  by_cases here : t c.kind?
  · refine .look ?_ fun h inside => by rw [yes h (holds h inside), yes _ here]
    rw [yes _ here]
    exact first.decides c left
  · refine .expected what (¬t ·) (fun c other => ?_) here possible
    rw [bind_of_ok (peekKind?_eq c), no _ other]

end Choices

theorem skip {s : Unit → Parser β} (predictive : Predictive k B F (s ()))
    (begins : ∀ h, B h → h ≠ some .newline) : Predictive k B F (skipNewlines >>= s) := by
  refine ⟨fun c left => .skip (predictive.decides _ ?_) begins, ?_⟩
  · exact Nat.lt_of_le_of_lt c.length_skipNewlines left
  · obtain ⟨more, b, free, reads, starts⟩ := predictive.possible
    have nothing : Reads skipNewlines [] () (· ≠ some .newline) := .skipNewlines (List.forall_mem_nil _)
    exact ⟨more, b, free, nothing.bind reads fun tail follows =>
      begins _ (starts rfl tail follows), starts⟩

def sample (kind : TokenKind) : Token := ⟨kind, "", none, .synthetic ""⟩

theorem take {kind : TokenKind} (real : kind ≠ .eof) (what : Expected) :
    Predictive k (just kind) (fun _ => True) (Parser.take kind what) := by
  have possible : Completable (just kind) (fun _ => True) (Parser.take kind what) [] :=
    ⟨[sample kind], sample kind, by simpa [sample] using real, .take (sample kind) what _,
      fun _ _ _ => List.mem_singleton_self _⟩
  refine ⟨fun c _ => ?_, possible⟩
  by_cases here : c.kind? = some kind
  · obtain ⟨token, splits, rfl⟩ := Option.map_eq_some_iff.mp here
    obtain ⟨rest, splits⟩ := List.head?_eq_some_iff.mp splits
    exact .value [token] rest token splits (.take token what _) nofun
  · exact .expected what (· ≠ some kind) (fun c other => take_of_other what other) here possible

theorem operandOf (sign : Token) (predictive : Predictive k B F p) :
    Predictive k B F (Parser.operandOf sign p) :=
  ⟨fun c left => (predictive.decides c left).operandOf sign, predictive.possible.operandOf sign⟩

/-- A loop that is its body with the loop behind it, one token later. -/
theorem loop {σ : Type} {loop : σ → Parser α} {body : (σ → Parser α) → σ → Parser α}
    (unrolls : loop = body loop) (possible : ∀ s, Completable B F (loop s) [])
    (round : ∀ j < k, (∀ s, Predictive j B F (loop s)) → ∀ s, Predictive (j + 1) B F (body loop s))
    (s : σ) : Predictive k B F (loop s) := by
  induction k generalizing s with
  | zero => exact ⟨fun c left => absurd left (Nat.not_lt_zero _), possible s⟩
  | succ k ih =>
    rw [unrolls]
    exact round k (Nat.lt_succ_self k) (fun s =>
      ih (fun j below => round j (Nat.lt_succ_of_lt below)) s) s

end Predictive

end BasicScript
