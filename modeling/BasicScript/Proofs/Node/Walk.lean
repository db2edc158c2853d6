import BasicScript.Proofs.Node.Level

/-! Walks over tokens. A walk is a place that cannot be out of bounds: it carries the proof that it
does not lie behind the first end of file, looks tokens up by index only where it has a proof that
the index is valid (the second token ahead is asked for, since there may be none), and lists the
places that it has left, each in front of the next. The parser does over a walk what it does over a
stream, so all this is true of every place that a run over a stream comes to. How many tokens are in
front of the end of file is a measure for each loop and each recursion: no run depends on what is
done when its rounds or its depth are used up. -/

set_option autoImplicit false

namespace BasicScript

open TokenSource (left)

/-- Tokens with an end of file, and the index of the first one. -/
structure Ended where
  tokens : Array Token
  stop : Nat
  within : stop < tokens.size
  ends : tokens[stop].kind = .eof
  first : ∀ (i : Nat) (before : i < stop), tokens[i].kind ≠ .eof

def Ended.ofTokens (tokens : List Token) : Ended :=
  let all := (Stream.ofTokens tokens).tokens
  have closed : ∃ token ∈ all, (token.kind == .eof) = true := by
    obtain ⟨array, same, _, closed, _⟩ := Stream.exists_ofTokens tokens
    obtain ⟨last, found, ends⟩ := Option.map_eq_some_iff.mp closed
    have same : all = array := congrArg Stream.tokens same
    exact ⟨last, same ▸ Array.mem_of_back? found, beq_iff_eq.mpr ends⟩
  { tokens := all
    stop := all.findIdx fun token => token.kind == .eof
    within := Array.findIdx_lt_size_of_exists closed
    ends := by simpa using Array.findIdx_getElem (w := Array.findIdx_lt_size_of_exists closed)
    first := fun _ before => by simpa using Array.not_of_lt_findIdx before }

/-- A place up to the first end of file, and those that have been left for it, the latest first. -/
structure Walk (text : Ended) where
  current : Nat
  visited : List Nat
  inside : current ≤ text.stop
  rising : (current :: visited).Pairwise (· > ·)

namespace Walk

variable {text : Ended} (w : Walk text)

def start (text : Ended) : Walk text := ⟨0, [], Nat.zero_le _, List.pairwise_singleton _ _⟩

theorem lt_size : w.current < text.tokens.size := Nat.lt_of_le_of_lt w.inside text.within

theorem previous_lt_size : w.current - 1 < text.tokens.size :=
  Nat.lt_of_le_of_lt (Nat.sub_le _ _) w.lt_size

def peek : Token :=
  have valid := w.lt_size
  text.tokens[w.current]

def previous : Token :=
  have valid := w.previous_lt_size
  text.tokens[w.current - 1]

/-- Only the place of the first end of file shows one. -/
theorem kind_peek_iff : w.peek.kind = .eof ↔ w.current = text.stop := by
  refine ⟨fun ends => ?_, fun there => ?_⟩
  · by_contra other
    exact text.first w.current (Nat.lt_of_le_of_ne w.inside other) ends
  · have ends := text.ends
    simpa only [peek, there] using ends

theorem lt_stop (real : w.peek.kind ≠ .eof) : w.current < text.stop :=
  Nat.lt_of_le_of_ne w.inside fun there => real (w.kind_peek_iff.mpr there)

def step (real : w.peek.kind ≠ .eof) : Walk text where
  current := w.current + 1
  visited := w.current :: w.visited
  inside := w.lt_stop real
  rising := by
    refine List.pairwise_cons.mpr ⟨List.forall_mem_cons.mpr ⟨Nat.lt_succ_self _, ?_⟩, w.rising⟩
    exact fun i left => Nat.lt_succ_of_lt (List.rel_of_pairwise_cons w.rising left)

instance : TokenSource (Walk text) where
  taken := current
  left w := text.stop - w.current
  next? w := if w.peek.kind = .eof then none else some w.peek
  second? w := text.tokens[w.current + 1]?
  advance w := if real : w.peek.kind ≠ .eof then w.step real else w
  faultSpan w :=
    if w.peek.kind ≠ .eof then w.peek.span
    else if 0 < w.current then .single w.previous.span.file w.previous.span.stop
    else w.peek.span

theorem left_eq : left w = text.stop - w.current := rfl

theorem next?_of_real {w : Walk text} (real : w.peek.kind ≠ .eof) :
    TokenSource.next? w = some w.peek := if_neg real

theorem next?_of_eof {w : Walk text} (ends : w.peek.kind = .eof) : TokenSource.next? w = none :=
  if_pos ends

theorem advance_of_real {w : Walk text} (real : w.peek.kind ≠ .eof) :
    TokenSource.advance w = w.step real := dif_pos real

theorem advance_of_eof {w : Walk text} (ends : w.peek.kind = .eof) : TokenSource.advance w = w :=
  dif_neg (not_not.mpr ends)

/-! ### Streams -/

def stream : Stream := ⟨text.tokens, w.current⟩

@[simp] theorem current_stream : w.stream.current = w.current := rfl

@[simp] theorem tokens_stream : w.stream.tokens = text.tokens := rfl

def shown {α : Type} : EStateM.Result Diagnostic (Walk text) α → EStateM.Result Diagnostic Stream α
  | .ok a w => .ok a w.stream
  | .error d w => .error d w.stream

theorem peek?_stream : w.stream.peek? = some w.peek := by
  have here : min w.current (text.tokens.size - 1) = w.current :=
    Nat.min_eq_left (Nat.le_sub_one_of_lt w.lt_size)
  show text.tokens[min w.current (text.tokens.size - 1)]? = _
  rw [here]
  exact Array.getElem?_eq_getElem w.lt_size

theorem next?_stream : w.stream.next? = TokenSource.next? w := by
  rw [Stream.next?, peek?_stream]
  by_cases ends : w.peek.kind = .eof
  · rw [next?_of_eof ends, Option.filter_some_neg (by simpa using ends)]
  · rw [next?_of_real ends, Option.filter_some_pos (by simpa using ends)]

theorem stopFrom_eq {n i : Nat} (before : i ≤ text.stop) (behind : text.stop < i + n) :
    Stream.stopFrom text.tokens n i = text.stop := by
  induction n generalizing i with
  | zero => omega
  | succ n ih =>
    have valid : i < text.tokens.size := Nat.lt_of_le_of_lt before text.within
    have here : text.tokens[i]? = some text.tokens[i] := Array.getElem?_eq_getElem valid
    rw [Stream.stopFrom, here, Option.map_some]
    by_cases there : i = text.stop
    · subst there
      rw [if_pos (congrArg some text.ends)]
    · have less : i < text.stop := Nat.lt_of_le_of_ne before there
      rw [if_neg fun ends => text.first i less (Option.some.inj ends)]
      exact ih less (by omega)

theorem left_stream : left w.stream = left w := by
  have inside := w.lt_size
  have within := text.within
  show Stream.stopFrom text.tokens (text.tokens.size - w.current) w.current - w.current = _
  rw [stopFrom_eq w.inside (by omega), left_eq]

theorem advance_stream : w.stream.advance = (TokenSource.advance w).stream := by
  rw [Stream.advance, next?_stream]
  by_cases ends : w.peek.kind = .eof
  · rw [next?_of_eof ends, advance_of_eof ends]
  · rw [next?_of_real ends, advance_of_real ends]
    rfl

theorem faultSpan_stream : w.stream.faultSpan = TokenSource.faultSpan w := by
  show _ = if _ then _ else _
  rw [Stream.faultSpan, next?_stream]
  by_cases ends : w.peek.kind = .eof
  · rw [next?_of_eof ends, if_neg (not_not.mpr ends)]
    simp only [current_stream, tokens_stream, peek?_stream]
    by_cases started : 0 < w.current
    · have last : text.tokens[w.current - 1]? = some w.previous :=
        Array.getElem?_eq_getElem w.previous_lt_size
      rw [if_pos started, if_pos started, last]
      rfl
    · rw [if_neg started, if_neg started]
      rfl
  · rw [next?_of_real ends, if_pos ends]

def Stands (lo : Nat) (w : Walk text) (s : Stream) : Prop := s = w.stream ∧ lo ≤ w.current

theorem le_advance : w.current ≤ (TokenSource.advance w).current := by
  by_cases ends : w.peek.kind = .eof
  · rw [advance_of_eof ends]
  · rw [advance_of_real ends]
    exact Nat.le_succ _

instance (lo : Nat) : Alike (Stands lo : Walk text → Stream → Prop) where
  taken := by
    rintro w _ ⟨rfl, _⟩
    rfl
  left := by
    rintro w _ ⟨rfl, _⟩
    exact w.left_stream.symm
  next? := by
    rintro w _ ⟨rfl, _⟩
    exact w.next?_stream.symm
  sign? := by
    rintro w _ token ⟨rfl, _⟩ _
    rfl
  faultSpan := by
    rintro w _ ⟨rfl, _⟩
    exact w.faultSpan_stream.symm
  advance := by
    rintro w _ ⟨rfl, above⟩
    exact ⟨w.advance_stream, Nat.le_trans above w.le_advance⟩
  left_pos := by
    rintro w _ token ⟨rfl, _⟩ next
    have real : w.peek.kind ≠ .eof := fun ends => by
      rw [next?_of_eof ends] at next
      cases next
    exact Nat.sub_pos_of_lt (w.lt_stop real)
  left_advance := by
    rintro w _ ⟨rfl, _⟩
    by_cases ends : w.peek.kind = .eof
    · rw [advance_of_eof ends, left_eq, w.kind_peek_iff.mp ends, Nat.sub_self]
    · rw [advance_of_real ends]
      rfl

/-- Two runs over streams that do what the same run over walks does end in the same way. -/
theorem eq_of_agreed {α : Type} {lo l m : Nat} {ended : EStateM.Result Diagnostic (Walk text) α}
    {one other : EStateM.Result Diagnostic Stream α} (first : Agreed (Stands lo) l ended one)
    (second : Agreed (Stands lo) m ended other) : one = other := by
  cases first with
  | value related _ =>
    cases second with
    | value related' _ => rw [related.1, related'.1]
  | stop related =>
    cases second with
    | stop related' => rw [related.1, related'.1]

theorem shown_of_agreed {α : Type} {lo l : Nat} {ended : EStateM.Result Diagnostic (Walk text) α}
    {one : EStateM.Result Diagnostic Stream α} (agreed : Agreed (Stands lo) l ended one) :
    one = shown ended := by
  cases agreed with
  | value related _ => rw [related.1, shown]
  | stop related => rw [related.1, shown]

theorem kind?_of_done (done : left w = 0) (kind : TokenKind) : TokenSource.kind? w ≠ some kind := by
  have there : w.current = text.stop := Nat.le_antisymm w.inside (Nat.sub_eq_zero_iff_le.mp done)
  have none : TokenSource.kind? w = none :=
    congrArg (Option.map Token.kind) (next?_of_eof (w.kind_peek_iff.mpr there))
  rw [none]
  exact (Option.some_ne_none kind).symm

theorem left_advance : left (TokenSource.advance w) = left w - 1 :=
  Alike.left_advance (R := (Stands 0 : Walk text → Stream → Prop)) ⟨rfl, Nat.zero_le _⟩

/-- Newlines are skipped up to the last of them. -/
theorem kind?_skipNewlines {n : Nat} (enough : left w ≤ n) :
    TokenSource.kind? (TokenSource.skipNewlines n w) ≠ some .newline := by
  induction n generalizing w with
  | zero => exact w.kind?_of_done (Nat.le_zero.mp enough) _
  | succ n ih =>
    rw [TokenSource.skipNewlines]
    split
    · exact ih _ (by rw [left_advance]; omega)
    · assumption

theorem skipNewlines_eq {n m : Nat} (enough : left w ≤ n) (plenty : left w ≤ m) :
    TokenSource.skipNewlines n w = TokenSource.skipNewlines m w := by
  induction n generalizing w m with
  | zero =>
    cases m with
    | zero => rfl
    | succ m => exact (if_neg (w.kind?_of_done (Nat.le_zero.mp enough) _)).symm
  | succ n ih =>
    by_cases newline : TokenSource.kind? w = some .newline
    · obtain _ | m := m
      · exact absurd newline (w.kind?_of_done (Nat.le_zero.mp plenty) _)
      · rw [TokenSource.skipNewlines, TokenSource.skipNewlines, if_pos newline, if_pos newline]
        exact ih _ (by rw [left_advance]; omega) (by rw [left_advance]; omega)
    · rw [TokenSource.skipNewlines, if_neg newline]
      cases m with
      | zero => rfl
      | succ m => exact (if_neg newline).symm

end Walk

/-! ### Progress -/

/-- At the place of the walk, the parser comes to an end at a place of the same text, and not in
front of where it started. When it has a value, it has taken a token. -/
def Progresses {α : Type} {text : Ended} (w : Walk text) (p : ParserOver Stream α) : Prop :=
  ∃ w' : Walk text, w.current ≤ w'.current ∧
    ((∃ a, p w.stream = .ok a w'.stream ∧ w.current < w'.current) ∨
      ∃ d, p w.stream = .error d w'.stream)

/-- At this place a loop comes to the same end with any number of rounds that exceeds the number of
tokens, whatever is done behind the last round. -/
def Closes {α ι : Type} (s : Stream) (body : (ι → ParserOver Stream α) → ι → ParserOver Stream α)
    (loop : Nat → ι → ParserOver Stream α) : Prop :=
  ∀ (stop : ι → ParserOver Stream α) (n m : Nat) (x : ι), left s < n → left s < m →
    Parser.iterate body stop n x s = loop m x s

namespace Grammar

open BasicScript.Parser

section

variable {σ τ : Type} [TokenSource σ] [TokenSource τ] {R : σ → τ → Prop} [Alike R] {k : Nat}

/-- An unfolding does the same at places that are alike, even where its depth is used up. -/
theorem unfolded_self (n k : Nat) : (unfolded n : RulesOver σ).Parallel R k (unfolded n : RulesOver τ) := by
  induction n generalizing k with
  | zero =>
    exact ⟨fun _ _ => .expected _, fun _ _ => .expected _, fun _ _ => .expected _,
      fun _ _ => .expected _⟩
  | succ n ih =>
    cases k with
    | zero => exact ⟨nofun, nofun, nofun, nofun⟩
    | succ k => exact next_parallel (ih k)

theorem rule_advances {r : RulesOver σ} {r' : RulesOver τ} (rules : r.Parallel R k r') (p : Level) :
    Advances R (k + 1) (rule r p) (rule r' p) := by
  cases p with
  | assignment | sum => exact expression_advances rules
  | comparison => exact comparison_advances rules
  | product => exact product_advances rules
  | power => exact power_advances rules
  | sign => exact unary_advances rules
  | chained => exact fun j below => chained_parallel (rules.mono (Nat.le_of_lt_succ below))
  | atom => exact fun j below => atom_parallel (rules.mono (Nat.le_of_lt_succ below))

end

structure LoopsClose (r : RulesOver Stream) (s : Stream) : Prop where
  program : Closes s (programBody (statement r)) (programFrom (statement r))
  block (terminators : List Keyword) (opener : Keyword) :
    Closes s (blockBody r terminators opener) (blockFrom r terminators opener)
  items : Closes s (itemsBody r.expression) (itemsFrom r.expression)
  entries : Closes s (itemsBody (entry r)) (itemsFrom (entry r))
  elseIfs : Closes s (elseIfsBody r) (elseIfsFrom r)
  parameters : Closes s parametersBody parametersFrom
  postfixes : Closes s (postfixBody r) (postfixFrom r)
  operators (operator? : TokenKind → Option BinaryOperator) (p : Level) :
    Closes s (chainBody operator? (rule r p)) (chainFrom operator? (rule r p))
  newlines (n : Nat) : left s ≤ n →
    TokenSource.skipNewlines n s = TokenSource.skipNewlines (left s) s ∧
      TokenSource.kind? (TokenSource.skipNewlines n s) ≠ some .newline

variable {α ι : Type} {text : Ended} (w : Walk text)

theorem progresses {p : ParserOver (Walk text) α} {q : ParserOver Stream α}
    (advances : ∀ k, Advances (Walk.Stands w.current) k p q) : Progresses w q := by
  have stands : Walk.Stands w.current w w.stream := ⟨rfl, Nat.le_refl _⟩
  have ends := advances (left w + 1) (left w) (Nat.lt_succ_self _) stands (Nat.lt_succ_self _)
  generalize p w = one, same : q w.stream = other at ends
  cases ends with
  | @value a w' _ related less =>
    obtain ⟨rfl, above⟩ := related
    rw [Walk.left_eq, Walk.left_eq] at less
    exact ⟨w', above, .inl ⟨a, same, by omega⟩⟩
  | @stop d w' _ related =>
    obtain ⟨rfl, above⟩ := related
    exact ⟨w', above, .inr ⟨d, same⟩⟩

theorem closes {body : (ι → ParserOver (Walk text) α) → ι → ParserOver (Walk text) α}
    {body' : (ι → ParserOver Stream α) → ι → ParserOver Stream α}
    {loop : Nat → ι → ParserOver Stream α} {stop : ι → ParserOver Stream α}
    (round : ∀ k, Parallel.Round (Walk.Stands 0) k body body')
    (loop_eq : ∀ n, loop n = iterate body' stop n) : Closes w.stream body' loop := by
  intro other n m x enough plenty
  rw [Walk.left_stream] at enough plenty
  have stands : Walk.Stands 0 w w.stream := ⟨rfl, Nat.zero_le _⟩
  have follows (stop : ι → ParserOver Stream α) {n : Nat} (enough : left w < n) :=
    Parallel.iterate (fun _ => expected .expression) stop (round (left w + 1)) (Nat.le_refl _) enough
      x stands (Nat.lt_succ_self _)
  rw [loop_eq]
  exact Walk.eq_of_agreed (follows other enough) (follows stop plenty)

theorem newlines_close {n : Nat} (enough : left w ≤ n) :
    TokenSource.skipNewlines n w.stream = TokenSource.skipNewlines (left w.stream) w.stream ∧
      TokenSource.kind? (TokenSource.skipNewlines n w.stream) ≠ some .newline := by
  have stands : Walk.Stands 0 w w.stream := ⟨rfl, Nat.zero_le _⟩
  have same (n : Nat) : TokenSource.skipNewlines n w.stream = (TokenSource.skipNewlines n w).stream :=
    (Parallel.skipped n stands).1.1
  have kind := Parallel.kind?_eq (Parallel.skipped n stands).1
  refine ⟨?_, kind ▸ Walk.kind?_skipNewlines w enough⟩
  rw [same, same, Walk.left_stream, Walk.skipNewlines_eq w (Nat.le_refl _) enough]

theorem loopsClose (depth : Nat) : LoopsClose (unfolded depth) w.stream := by
  have rules (k : Nat) :
      (unfolded depth).Parallel (Walk.Stands 0 : Walk text → Stream → Prop) k (unfolded depth) :=
    unfolded_self depth k
  exact {
    program := closes w (fun k => programBody_parallel
      ((statement_advances (rules k)).mono (Nat.le_succ k))) (programFrom_eq _)
    block := fun terminators opener => closes w
      (fun k => blockBody_parallel (rules k) terminators opener) (blockFrom_eq _ terminators opener)
    items := closes w (fun k => itemsBody_parallel fun j _ => (rules j).expression.parallel)
      (itemsFrom_eq _)
    entries := closes w (fun k => itemsBody_parallel fun j _ => entry_parallel (rules j))
      (itemsFrom_eq _)
    elseIfs := closes w (fun k => elseIfsBody_parallel (rules k)) elseIfsFrom_eq
    parameters := closes w (fun k => parametersBody_parallel) parametersFrom_eq
    postfixes := closes w (fun k => (postfixBody_parallel (rules k)).mono (Nat.le_succ k))
      postfixFrom_eq
    operators := fun operator? p => closes w
      (fun k => chainBody_parallel ((rule_advances (rules k) p).mono (Nat.le_succ k)))
      (chainFrom_eq operator? _)
    newlines := fun n enough => newlines_close w (Walk.left_stream w ▸ enough) }

/-- Neither the rounds of the loop over statements nor the depth of the rules are ever used up. -/
theorem program_closes (base : RulesOver Stream) (stop : List Node → ParserOver Stream (List Node))
    {n m : Nat} (enough : left w < n) (plenty : left w < m) :
    iterate (programBody (next^[n] base).statement) stop m [] w.stream = Node.parse w.stream := by
  have stands : Walk.Stands 0 w w.stream := ⟨rfl, Nat.zero_le _⟩
  let k := left w + 1
  have rules : (unfolded k).Parallel (Walk.Stands 0 : Walk text → Stream → Prop) k (next^[n] base) := by
    rw [unfolded_eq (σ := Walk text)]
    exact iterate_next_parallel _ _ (Nat.le_refl k) enough
  have ends := Parallel.iterate (fun nodes => pure nodes.reverse) stop
    (programBody_parallel rules.statement) (Nat.le_refl k) plenty [] stands (Nat.lt_succ_self _)
  rw [← programFrom_eq] at ends
  exact Walk.eq_of_agreed ends (Node.parse_parallel stands)

end Grammar

namespace Node

/-- The parser makes progress and stays in bounds on all lists of tokens, with one end of file, with
several, or with none. It does over a walk what it does over a stream, so each place that it comes
to lies behind the ones before it and not behind the first end of file, and each index is valid. It
ends by itself: neither its depth nor the rounds of its loops are used up. And from each place, a
rule that has a value takes a token, and one that has none does not go back. -/
theorem parse_progresses (tokens : List Token) :
    let text := Ended.ofTokens tokens
    let start := Stream.ofTokens tokens
    ofTokens tokens = Parser.answer (parse start) ∧
    parse start = Walk.shown (parse (Walk.start text)) ∧
    (∀ base stop n m, left start < n → left start < m →
      Parser.iterate (Grammar.programBody (Grammar.next^[n] base).statement) stop m [] start =
        parse start) ∧
    ∀ (w : Walk text) (depth : Nat),
      Progresses w (Grammar.statement (Grammar.unfolded depth)) ∧
      (∀ p, Progresses w (Grammar.rule (Grammar.unfolded depth) p)) ∧
      Grammar.LoopsClose (Grammar.unfolded depth) w.stream := by
  intro text start
  have starts : start = (Walk.start text).stream := by
    obtain ⟨array, same, _⟩ := Stream.exists_ofTokens tokens
    have current : start.current = 0 := congrArg Stream.current same
    show start = ⟨start.tokens, 0⟩
    rw [← current]
  have stands : Walk.Stands 0 (Walk.start text) start := ⟨starts, Nat.zero_le _⟩
  refine ⟨ofTokens_eq_parse tokens, Walk.shown_of_agreed (parse_parallel stands), ?_, ?_⟩
  · intro base stop n m enough plenty
    rw [starts] at enough plenty ⊢
    rw [Walk.left_stream] at enough plenty
    exact Grammar.program_closes _ base stop enough plenty
  · intro w depth
    -- the rules run beside themselves, over the walk and over its stream
    have rules (k : Nat) := Grammar.unfolded_self (R := (Walk.Stands w.current : Walk text → _)) depth k
    refine ⟨Grammar.progresses w fun k => (Grammar.statement_advances (rules k)).mono (Nat.le_succ k),
      fun p => Grammar.progresses w fun k => (Grammar.rule_advances (rules k) p).mono (Nat.le_succ k),
      Grammar.loopsClose w depth⟩

end Node

end BasicScript
