import BasicScript.Proofs.Node.Cursor

/-! Streams and cursors. A stream whose last token is an end of file shows the cursor over the
tokens in front of its first end of file: both see the same token next, are moved by the same steps,
and report a fault at the same place. -/

set_option autoImplicit false

namespace BasicScript

def Token.isReal (token : Token) : Bool := token.kind ≠ .eof

@[simp] theorem Token.isReal_iff {token : Token} : token.isReal = true ↔ token.kind ≠ .eof :=
  decide_eq_true_iff

namespace Stream

def ahead (tokens : Array Token) (i : Nat) : List Token :=
  (tokens.toList.drop i).takeWhile Token.isReal

section

variable {tokens : Array Token} {token : Token} {i : Nat}

theorem drop_eq_cons (here : tokens[i]? = some token) :
    tokens.toList.drop i = token :: tokens.toList.drop (i + 1) := by
  rw [List.drop_eq_getElem?_toList_append, Array.getElem?_toList, here]
  rfl

theorem ahead_of_real (here : tokens[i]? = some token) (real : token.isReal = true) :
    ahead tokens i = token :: ahead tokens (i + 1) := by
  rw [ahead, drop_eq_cons here, List.takeWhile_cons_of_pos real, ahead]

theorem ahead_of_eof (here : tokens[i]? = some token) (ends : token.isReal = false) :
    ahead tokens i = [] := by
  rw [ahead, drop_eq_cons here, List.takeWhile_cons_of_neg (Bool.eq_false_iff.mp ends)]

theorem stopFrom_eq {n : Nat} (all : i + n = tokens.size) :
    stopFrom tokens n i = i + (ahead tokens i).length := by
  induction n generalizing i with
  | zero =>
    rw [ahead, List.drop_eq_nil_of_le (by simpa using Nat.le_of_eq all.symm)]
    rfl
  | succ n ih =>
    obtain ⟨token, here⟩ : ∃ token, tokens[i]? = some token :=
      ⟨_, Array.getElem?_eq_getElem (by omega)⟩
    rw [stopFrom, here]
    cases real : token.isReal with
    | true =>
      rw [if_neg (by simpa using Token.isReal_iff.mp real), ih (by omega), ahead_of_real here real,
        List.length_cons]
      omega
    | false =>
      rw [if_pos (by simpa [Token.isReal] using real), ahead_of_eof here real]
      rfl

end

/-- The stream stands at a place in a text that has tokens, and the cursor stands at the same place
among the tokens in front of the first end of file. -/
structure Shows (s : Stream) (c : Cursor) : Prop where
  inside : s.current < s.tokens.size
  closed : s.tokens.back?.map Token.kind = some .eof
  started : 0 < s.current ∨ c.rest ≠ []
  taken : c.taken = s.current
  previous : c.previous = if 0 < s.current then s.tokens[s.current - 1]? else none
  rest : c.rest = ahead s.tokens s.current

namespace Shows

variable {s : Stream} {c : Cursor} {token : Token}

theorem peek?_eq (shows : s.Shows c) : s.peek? = s.tokens[s.current]? := by
  have := shows.inside
  rw [peek?, Nat.min_eq_left (by omega)]

theorem here (shows : s.Shows c) : ∃ token, s.tokens[s.current]? = some token :=
  ⟨_, Array.getElem?_eq_getElem shows.inside⟩

theorem of_real (shows : s.Shows c) (here : s.tokens[s.current]? = some token)
    (real : token.isReal = true) :
    s.next? = some token ∧ c.rest = token :: ahead s.tokens (s.current + 1) := by
  rw [next?, shows.peek?_eq, here, shows.rest, ahead_of_real here real]
  exact ⟨Option.filter_some_pos (by simpa using real), rfl⟩

theorem of_eof (shows : s.Shows c) (here : s.tokens[s.current]? = some token)
    (ends : token.isReal = false) : s.next? = none ∧ c.rest = [] := by
  rw [next?, shows.peek?_eq, here, shows.rest, ahead_of_eof here ends]
  exact ⟨Option.filter_some_neg (by simpa [Token.isReal] using ends), rfl⟩

theorem next?_eq (shows : s.Shows c) : s.next? = c.rest.head? := by
  obtain ⟨token, here⟩ := shows.here
  cases real : token.isReal with
  | true =>
    obtain ⟨next, rest⟩ := shows.of_real here real
    rw [next, rest, List.head?_cons]
  | false =>
    obtain ⟨next, rest⟩ := shows.of_eof here real
    rw [next, rest, List.head?_nil]

theorem left_eq (shows : s.Shows c) : TokenSource.left s = c.rest.length := by
  show stopFrom s.tokens (s.tokens.size - s.current) s.current - s.current = _
  rw [stopFrom_eq (Nat.add_sub_of_le (Nat.le_of_lt shows.inside)), shows.rest]
  omega

/-- An end of file is the last token of a stream, or comes before it. -/
theorem advance (shows : s.Shows c) : s.advance.Shows c.advance := by
  obtain ⟨token, here⟩ := shows.here
  cases real : token.isReal with
  | false =>
    obtain ⟨next, rest⟩ := shows.of_eof here real
    simp only [Stream.advance, next, Cursor.advance, rest]
    exact shows
  | true =>
    obtain ⟨next, rest⟩ := shows.of_real here real
    have inside : s.current + 1 < s.tokens.size := by
      refine Nat.lt_of_le_of_ne shows.inside fun last => ?_
      have closed := shows.closed
      rw [Array.back?_eq_getElem?, ← last, Nat.add_sub_cancel, here] at closed
      exact Token.isReal_iff.mp real (Option.some.inj closed)
    simp only [Stream.advance, next, Cursor.advance, rest]
    exact ⟨inside, shows.closed, .inl (Nat.succ_pos _), congrArg (· + 1) shows.taken, here.symm, rfl⟩

/-- Behind a token that is taken, both see the same token next, or neither sees one. -/
theorem second? (shows : s.Shows c) {sign : Token} (next : s.next? = some token)
    (real : sign.isReal = true) :
    TokenSource.second? s = some sign ↔ TokenSource.second? c = some sign := by
  have after := shows.advance.next?_eq
  have behind : c.advance.rest.head? = TokenSource.second? c := by
    have split := shows.next?_eq
    rw [next] at split
    obtain ⟨rest, split⟩ := List.head?_eq_some_iff.mp split.symm
    simp only [Cursor.advance, TokenSource.second?, split]
    exact List.head?_eq_getElem?
  rw [behind, Stream.next?, shows.advance.peek?_eq] at after
  simp only [Stream.advance, next] at after
  rw [← after, Option.filter_eq_some_iff]
  exact ⟨fun found => ⟨found, by simpa using real⟩, And.left⟩

theorem faultSpan_eq (shows : s.Shows c) : s.faultSpan = c.faultSpan := by
  obtain ⟨token, here⟩ := shows.here
  cases real : token.isReal with
  | true =>
    obtain ⟨next, rest⟩ := shows.of_real here real
    simp only [Stream.faultSpan, Cursor.faultSpan, next, rest]
  | false =>
    obtain ⟨next, rest⟩ := shows.of_eof here real
    have started : 0 < s.current := shows.started.resolve_right fun some => some rest
    have previous := shows.previous
    rw [if_pos started] at previous
    obtain ⟨last, found⟩ : ∃ last, s.tokens[s.current - 1]? = some last :=
      ⟨_, Array.getElem?_eq_getElem (Nat.lt_of_le_of_lt (Nat.sub_le _ _) shows.inside)⟩
    simp only [Stream.faultSpan, Cursor.faultSpan, next, rest, if_pos started, previous, found]
    rfl

end Shows

end Stream

end BasicScript
