import BasicScript.Proofs.Node.Parallel
import BasicScript.Proofs.Node.Stream
import Mathlib.Data.List.TakeWhile

/-! The end of a list of tokens. A list may close with an end of file, hold several, or have none:
the parser reads the tokens in front of the first, so it can be studied over cursors, which know no
end of file. -/

set_option autoImplicit false

namespace BasicScript

theorem Token.takeWhile_isReal_closed {close : Token} (closes : close.isReal = false)
    (tokens : List Token) :
    (tokens ++ [close]).takeWhile isReal = tokens.takeWhile isReal := by
  rw [List.takeWhile_append, List.takeWhile_cons_of_neg (Bool.eq_false_iff.mp closes),
    List.append_nil]
  split
  · exact ((List.takeWhile_prefix _).eq_of_length ‹_›).symm
  · rfl

namespace Stream

/-- A stream ends in an end of file, whether the list has one or not. -/
theorem exists_ofTokens (tokens : List Token) : ∃ all : Array Token, ofTokens tokens = ⟨all, 0⟩ ∧
    0 < all.size ∧ all.back?.map Token.kind = some .eof ∧
      ahead all 0 = (Cursor.ofTokens tokens).rest := by
  unfold ofTokens
  dsimp only
  split
  · rename_i closed
    have some : tokens ≠ [] := by
      rintro rfl
      cases closed
    refine ⟨_, rfl, ?_, ?_, rfl⟩
    · simpa using List.length_pos_iff.mpr some
    · simpa using closed
  · have closes : (closing tokens.getLast?).kind = .eof := by
      unfold closing
      split <;> rfl
    refine ⟨_, rfl, by simp, by simpa using closes, ?_⟩
    exact Token.takeWhile_isReal_closed (by simpa [Token.isReal] using closes) tokens

/-- A list that has tokens in front of its first end of file shows them. -/
theorem shows_ofTokens {tokens : List Token} (some : (Cursor.ofTokens tokens).rest ≠ []) :
    (ofTokens tokens).Shows (Cursor.ofTokens tokens) := by
  obtain ⟨all, start, size, closed, ahead⟩ := exists_ofTokens tokens
  rw [start]
  exact ⟨size, closed, .inr some, rfl, rfl, ahead.symm⟩

theorem next?_ofTokens {tokens : List Token} (none : (Cursor.ofTokens tokens).rest = []) :
    (ofTokens tokens).next? = .none := by
  obtain ⟨all, start, size, _, rest⟩ := exists_ofTokens tokens
  rw [none] at rest
  have here : all[0]? = .some all[0] := Array.getElem?_eq_getElem size
  have ends : all[0].isReal = false := by
    refine Bool.eq_false_iff.mpr fun real => ?_
    rw [ahead_of_real here real] at rest
    cases rest
  rw [start, next?, peek?, Nat.zero_min, here]
  exact Option.filter_some_neg (by simpa [Token.isReal] using ends)

/-- Whether an assignment follows is decided by the token behind a name. At the end of the file the
stream sees its end there and the cursor nothing, and neither is an assignment sign. -/
theorem Shows.assignmentSign?_eq {s : Stream} {c : Cursor} {token : Token} (shows : s.Shows c)
    (next : s.next? = some token) :
    Grammar.assignmentSign? token s = Grammar.assignmentSign? token c := by
  unfold Grammar.assignmentSign?
  split
  · refine Option.ext fun sign => ?_
    simp only [Option.filter_eq_some_iff]
    refine and_congr_left fun signs => shows.second? next ?_
    refine Token.isReal_iff.mpr fun ends => ?_
    rw [ends] at signs
    cases signs
  · rfl

instance : Alike Shows where
  taken shows := shows.taken.symm
  left shows := shows.left_eq
  next? shows := shows.next?_eq
  sign? shows next := shows.assignmentSign?_eq next
  faultSpan shows := shows.faultSpan_eq
  advance shows := shows.advance
  left_pos {s c token} shows next := by
    have head : c.rest.head? = some token := shows.next?_eq ▸ next
    rw [shows.left_eq]
    exact List.length_pos_iff.mpr fun empty => by simp [empty] at head
  left_advance {s c} shows := by
    have behind : TokenSource.left s.advance = c.advance.rest.length := shows.advance.left_eq
    rw [shows.left_eq]
    refine behind.trans ?_
    obtain ⟨taken, previous, _ | ⟨token, rest⟩⟩ := c <;> rfl

end Stream

theorem Grammar.programFrom_at_end {σ : Type} [TokenSource σ] {place : σ}
    (ends : TokenSource.next? place = none) (p : ParserOver σ Node) (n : Nat) :
    programFrom p (n + 1) [] place = .ok [] place := by
  have kind : TokenSource.kind? place = none := congrArg (Option.map Token.kind) ends
  have still (n : Nat) : TokenSource.skipNewlines n place = place := by
    cases n with
    | zero => rfl
    | succ n => exact if_neg (by rw [kind]; nofun)
  have skipped : (Parser.skipNewlines : ParserOver σ Unit) place = .ok () place :=
    congrArg (EStateM.Result.ok ()) (still _)
  have peeked : (Parser.peekKind? : ParserOver σ (Option TokenKind)) place = .ok none place :=
    congrArg (EStateM.Result.ok · place) kind
  rw [programFrom, bind_of_ok skipped, bind_of_ok peeked]
  rfl

def Parser.answer {σ α : Type} : EStateM.Result Diagnostic σ α → Except Diagnostic α
  | .ok a _ => .ok a
  | .error d _ => .error d

namespace Node

def parse {σ : Type} [TokenSource σ] (start : σ) : EStateM.Result Diagnostic σ (List Node) :=
  let bound := TokenSource.left start + 1
  Grammar.programFrom (Grammar.unfolded bound).statement bound [] start

theorem parse_parallel {σ τ : Type} [TokenSource σ] [TokenSource τ] {R : σ → τ → Prop} [Alike R]
    {s : σ} {t : τ} (related : R s t) : Agreed R (TokenSource.left s + 1) (parse s) (parse t) := by
  let k := TokenSource.left s + 1
  have rules : (Grammar.unfolded k).Parallel R k (Grammar.unfolded k) :=
    Grammar.unfolded_parallel (Nat.le_refl k) (Nat.le_refl k)
  have ends := Parallel.iterate (fun nodes => pure nodes.reverse) (fun nodes => pure nodes.reverse)
    (Grammar.programBody_parallel rules.statement) (Nat.le_refl k) (Nat.le_refl k) [] related
      (Nat.lt_succ_self _)
  rw [← Grammar.programFrom_eq, ← Grammar.programFrom_eq] at ends
  rw [show parse t = Grammar.programFrom (Grammar.unfolded k).statement k [] t by
    rw [parse, ← Alike.left related]]
  exact ends

theorem ofTokens_eq_parse (tokens : List Token) :
    ofTokens tokens = Parser.answer (parse (Stream.ofTokens tokens)) := by
  unfold ofTokens
  dsimp only [EStateM.run, parse]
  generalize Grammar.programFrom (σ := Stream) _ _ _ _ = outcome
  cases outcome <;> rfl

/-- The run of the parser over the tokens in front of the first end of file, with the cursor at its
end. -/
def parsing (tokens : List Token) : EStateM.Result Diagnostic Cursor (List Node) :=
  let start := Cursor.ofTokens tokens
  let rules := Grammar.unfolded (start.rest.length + 1)
  (Grammar.programFrom rules.statement (start.rest.length + 1) []).run start

theorem ofTokens_eq_answer (tokens : List Token) :
    ofTokens tokens = Parser.answer (parsing tokens) := by
  have run : parsing tokens = parse (Cursor.ofTokens tokens) := rfl
  rw [ofTokens_eq_parse, run]
  by_cases none : (Cursor.ofTokens tokens).rest = []
  · have cursor : TokenSource.next? (Cursor.ofTokens tokens) = .none := by
      rw [Cursor.next?_eq, none, List.head?_nil]
    rw [parse, parse, Grammar.programFrom_at_end (Stream.next?_ofTokens none),
      Grammar.programFrom_at_end cursor]
    rfl
  · have ends := parse_parallel (Stream.shows_ofTokens none)
    generalize parse (Stream.ofTokens tokens) = one, parse (Cursor.ofTokens tokens) = other at ends ⊢
    cases ends <;> rfl

theorem exists_scan_of_ofText {name text : String} {nodes : List Node}
    (done : ofText name text = .ok nodes) :
    ∃ tokens, Token.scan name text = .ok tokens ∧ ofTokens tokens = .ok nodes := by
  unfold ofText at done
  cases scanned : Token.scan name text with
  | ok tokens => exact ⟨tokens, rfl, by simpa [scanned, bind, Except.bind] using done⟩
  | error d => simp [scanned, bind, Except.bind] at done

/-- What a list of tokens spells, and each fault in it, does not depend on the first end of file or
on what follows it. -/
theorem ofTokens_before_eof (tokens : List Token) :
    ofTokens tokens = ofTokens (tokens.takeWhile fun token => token.kind ≠ .eof) := by
  have same : Cursor.ofTokens (tokens.takeWhile fun token => token.kind ≠ .eof) =
      Cursor.ofTokens tokens := by
    rw [Cursor.ofTokens, List.takeWhile_idem, Cursor.ofTokens]
  rw [ofTokens_eq_answer, ofTokens_eq_answer, parsing, parsing, same]

end Node

end BasicScript
