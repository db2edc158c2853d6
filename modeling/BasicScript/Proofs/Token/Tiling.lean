import BasicScript.Proofs.Token.Line
import Mathlib.Data.List.Induction
import Mathlib.Data.List.TakeWhile

/-! Tokens tile their text: they spell its characters in order, without overlap, at the places that
their spans name, and between them stand only blanks and comments. -/

set_option autoImplicit false

namespace BasicScript

/-- The line and column of a place in the text `cs`, found by looking back from it: the line breaks
in front of it, and the characters since the last of them. -/
structure Position.Marks (cs : List Char) (p : Position) : Prop where
  inside : p.index ≤ cs.length
  line : p.line = 1 + (cs.take p.index).count '\n'
  column : p.column = ((cs.take p.index).reverse.takeWhile (· != '\n')).length

namespace Position

theorem after_append (p : Position) (cs ds : List Char) :
    p.after (cs ++ ds) = (p.after cs).after ds := List.foldl_append

theorem index_after (p : Position) (cs : List Char) : (p.after cs).index = p.index + cs.length := by
  induction cs generalizing p with
  | nil => rfl
  | cons c cs ih =>
    have step : (p.next c).index = p.index + 1 := by
      unfold next
      split <;> rfl
    rw [after, List.foldl_cons, ← after, ih, step, List.length_cons]
    omega

theorem index_origin_after (cs : List Char) : (origin.after cs).index = cs.length :=
  (index_after origin cs).trans (Nat.zero_add _)

/-- Counting on from the start, character by character, agrees with looking back. -/
theorem line_column_after (cs : List Char) :
    (origin.after cs).line = 1 + cs.count '\n' ∧
      (origin.after cs).column = (cs.reverse.takeWhile (· != '\n')).length := by
  induction cs using List.reverseRecOn with
  | nil => exact ⟨rfl, rfl⟩
  | append_singleton cs c ih =>
    obtain ⟨line, column⟩ := ih
    rw [after_append, List.reverse_append, List.count_append]
    by_cases newline : c = '\n'
    · subst newline
      simp only [after, List.foldl_cons, List.foldl_nil, next] at line ⊢
      simp [line]
      omega
    · simp only [after, List.foldl_cons, List.foldl_nil, next, newline] at line column ⊢
      simp [newline, line, column]

theorem marks_after (behind ahead : List Char) :
    (origin.after behind).Marks (behind ++ ahead) := by
  have index := index_origin_after behind
  have seen : (behind ++ ahead).take (origin.after behind).index = behind := by
    rw [index, List.take_left]
  obtain ⟨line, column⟩ := line_column_after behind
  refine ⟨?_, ?_, ?_⟩
  · rw [index, List.length_append]
    exact Nat.le_add_right _ _
  · rw [seen, line]
  · rw [seen, column]

end Position

namespace Step

def isBlank : Step → Bool
  | .blank _ => true
  | .token _ _ _ | .fault _ _ _ => false

theorem isBlank_quoted (quote : Char) (rest : List Char) (taken : Nat) (text : List Char) :
    (quoted quote rest taken text).isBlank = false := by
  fun_induction quoted quote rest taken text with
  | case3 _ _ _ _ _ _ ih | case7 _ _ _ _ _ _ _ _ ih => exact ih
  | _ => rfl

theorem isBlank_integer (whole : List Char) : (integer whole).isBlank = false := by
  unfold integer
  split <;> rfl

theorem isBlank_number (c : Char) (rest : List Char) : (number c rest).isBlank = false := by
  rw [number_eq]
  unfold numberFrom
  split
  case h_1 behind =>
    dsimp only
    split
    · exact isBlank_integer _
    · rfl
  case h_2 => exact isBlank_integer _

theorem isBlank_word (c : Char) (rest : List Char) : (word c rest).isBlank = false := by
  unfold word
  dsimp only
  split <;> rfl

theorem isBlank_sign (rest : List Char) (second : Char) (long short : TokenKind) :
    (sign rest second long short).isBlank = false := by
  unfold sign
  split <;> rfl

theorem isBlank_recognize {c : Char} (rest : List Char) (sharp : c ≠ '#') (space : c ≠ ' ')
    (carriage : c ≠ '\r') : (recognize c rest).isBlank = false := by
  unfold recognize
  -- most characters stand for themselves, or begin a sign or a string
  split <;> first
    | rfl
    | exact isBlank_sign _ _ _ _
    | exact isBlank_quoted _ _ _ _
    | skip
  case h_3 => exact absurd rfl sharp
  case h_4 => exact absurd rfl space
  case h_5 => exact absurd rfl carriage
  case h_18 =>
    split
    · rfl
    · exact isBlank_sign _ _ _ _
  case h_24 => split <;> rfl
  case h_27 =>
    split
    · exact isBlank_number _ _
    · split
      · exact isBlank_word _ _
      · rfl

/-- What is skipped without making a token: a blank, or a comment up to the next line break. -/
theorem skips_of_recognize {c : Char} {rest : List Char} {more : Nat}
    (skips : recognize c rest = .blank more) :
    (c = ' ' ∨ c = '\r') ∧ more = 0 ∨
      c = '#' ∧ more = (rest.takeWhile (· != '\n')).length := by
  by_cases sharp : c = '#'
  · subst sharp
    cases skips
    exact .inr ⟨rfl, rfl⟩
  · refine .inl ?_
    by_cases space : c = ' '
    · subst space
      cases skips
      exact ⟨.inl rfl, rfl⟩
    · by_cases carriage : c = '\r'
      · subst carriage
        cases skips
        exact ⟨.inr rfl, rfl⟩
      · have token := isBlank_recognize rest sharp space carriage
        rw [skips] at token
        cases token

end Step

namespace Token

def Covers (token : Token) (i : Nat) : Prop :=
  token.span.start.index ≤ i ∧ i < token.span.stop.index

/-- The token is spelled as the characters of the text `cs` that its span covers. -/
structure Spells (cs : List Char) (token : Token) : Prop where
  start : token.span.start.Marks cs
  stop : token.span.stop.Marks cs
  lexeme : token.lexeme =
    String.ofList (cs.extract token.span.start.index token.span.stop.index)

/-- The characters from `first` up to `last` are a whole comment, and no token covers any of it. -/
structure IsComment (cs : List Char) (tokens : List Token) (first last : Nat) : Prop where
  sharp : cs[first]? = some '#'
  ends : last = cs.length ∨ cs[last]? = some '\n'
  inline {i : Nat} : first ≤ i → i < last → cs[i]? ≠ some '\n'
  free {i : Nat} : first ≤ i → i < last → ∀ token ∈ tokens, ¬token.Covers i

theorem IsComment.cons {cs : List Char} {tokens : List Token} {token : Token} {first last : Nat}
    (comment : IsComment cs tokens first last)
    (before : token.span.stop.index ≤ first) : IsComment cs (token :: tokens) first last where
  sharp := comment.sharp
  ends := comment.ends
  inline := comment.inline
  free past short := List.forall_mem_cons.mpr
    ⟨fun covers => Nat.not_lt.mpr past (Nat.lt_of_lt_of_le covers.2 before), comment.free past short⟩

/-- From the text `behind` on, the text goes on with `ahead`, which is made up of these tokens and
of what is skipped between them. -/
inductive Tiles (file : SourceFile) : List Char → List Char → List Token → Prop
  | done (behind : List Char) :
    Tiles file behind [] [⟨.eof, "", none, .single file (Position.origin.after behind)⟩]
  | blank {behind ahead : List Char} {tokens : List Token} {c : Char} (skipped : c = ' ' ∨ c = '\r')
      (rest : Tiles file (behind ++ [c]) ahead tokens) : Tiles file behind (c :: ahead) tokens
  | comment {behind ahead : List Char} {tokens : List Token} {body : List Char}
      (inline : '\n' ∉ body) (ended : ahead = [] ∨ ahead.head? = some '\n')
      (rest : Tiles file (behind ++ '#' :: body) ahead tokens) :
    Tiles file behind ('#' :: body ++ ahead) tokens
  | token {behind ahead : List Char} {tokens : List Token} {c : Char} {more : List Char}
      {kind : TokenKind} {literal : Option Literal} (real : kind ≠ .eof)
      (rest : Tiles file (behind ++ c :: more) ahead tokens) :
    Tiles file behind (c :: more ++ ahead)
      (⟨kind, String.ofList (c :: more), literal,
        ⟨file, Position.origin.after behind, Position.origin.after (behind ++ c :: more)⟩⟩ :: tokens)

namespace Tiles

variable {file : SourceFile} {behind ahead cs : List Char} {tokens : List Token}

/-- The end of file comes last, at the end of the text, and only there; all other tokens have
characters. -/
theorem closed (tiles : Tiles file behind ahead tokens) (whole : behind ++ ahead = cs) :
    ∃ body close, tokens = body ++ [close] ∧ close.kind = .eof ∧ close.lexeme = "" ∧
      close.span.start.index = cs.length ∧ close.span.stop = close.span.start ∧
        ∀ token ∈ body, token.kind ≠ .eof ∧ token.span.start.index < token.span.stop.index := by
  induction tiles with
  | done behind =>
    refine ⟨[], _, rfl, rfl, rfl, ?_, rfl, List.forall_mem_nil _⟩
    rw [← whole, List.append_nil]
    exact Position.index_origin_after behind
  | blank _ _ ih => exact ih (by simpa using whole)
  | comment _ _ _ ih => exact ih (by simpa using whole)
  | @token behind ahead tokens c more kind literal real _ ih =>
    obtain ⟨body, close, rfl, closes⟩ := ih (by simpa using whole)
    refine ⟨_ :: body, close, rfl, closes.1, closes.2.1, closes.2.2.1, closes.2.2.2.1,
      List.forall_mem_cons.mpr ⟨⟨real, ?_⟩, closes.2.2.2.2⟩⟩
    simp only [Position.index_origin_after, List.length_append, List.length_cons]
    omega

/-- No token reaches back. -/
theorem start_le (tiles : Tiles file behind ahead tokens) :
    ∀ token ∈ tokens, behind.length ≤ token.span.start.index := by
  induction tiles with
  | done behind =>
    rintro token inside
    obtain rfl := List.mem_singleton.mp inside
    exact Nat.le_of_eq (Position.index_origin_after behind).symm
  | blank _ _ ih =>
    intro token inside
    have := ih token inside
    simp only [List.length_append] at this
    omega
  | comment _ _ _ ih =>
    intro token inside
    have := ih token inside
    simp only [List.length_append] at this
    omega
  | token _ _ ih =>
    refine List.forall_mem_cons.mpr ⟨Nat.le_of_eq (Position.index_origin_after _).symm, ?_⟩
    intro token inside
    have := ih token inside
    simp only [List.length_append] at this
    omega

theorem ofFile (tiles : Tiles file behind ahead tokens) :
    ∀ token ∈ tokens, token.span.file = file := by
  induction tiles with
  | done _ => exact List.forall_mem_cons.mpr ⟨rfl, List.forall_mem_nil _⟩
  | blank _ _ ih => exact ih
  | comment _ _ _ ih => exact ih
  | token _ _ ih => exact List.forall_mem_cons.mpr ⟨rfl, ih⟩

theorem ordered (tiles : Tiles file behind ahead tokens) :
    tokens.Pairwise fun first second => first.span.stop.index ≤ second.span.start.index := by
  induction tiles with
  | done _ => exact List.pairwise_singleton _ _
  | blank _ _ ih => exact ih
  | comment _ _ _ ih => exact ih
  | token _ rest ih =>
    refine List.pairwise_cons.mpr ⟨fun token inside => ?_, ih⟩
    rw [Position.index_origin_after]
    exact rest.start_le token inside

theorem spells (tiles : Tiles file behind ahead tokens) (whole : behind ++ ahead = cs) :
    ∀ token ∈ tokens, token.Spells cs := by
  induction tiles with
  | done behind =>
    intro token inside
    obtain rfl := List.mem_singleton.mp inside
    have marks := Position.marks_after behind []
    rw [whole] at marks
    exact ⟨marks, marks, by simp [Span.single, List.extract_eq_take_drop]⟩
  | blank _ _ ih => exact ih (by simpa using whole)
  | comment _ _ _ ih => exact ih (by simpa using whole)
  | @token behind ahead tokens c more kind literal _ _ ih =>
    refine List.forall_mem_cons.mpr ⟨?_, ih (by simpa using whole)⟩
    have start := Position.marks_after behind (c :: more ++ ahead)
    have stop := Position.marks_after (behind ++ c :: more) ahead
    rw [List.append_assoc, whole] at stop
    rw [whole] at start
    refine ⟨start, stop, ?_⟩
    simp only [Position.index_origin_after, List.length_append, List.extract_eq_take_drop, ← whole,
      List.drop_left, Nat.add_sub_cancel_left, List.take_left]

/-- The characters that are skipped as a comment are one, as no token behind them reaches back. -/
theorem isComment {body : List Char} (rest : Tiles file (behind ++ '#' :: body) ahead tokens)
    (inline : '\n' ∉ body) (ended : ahead = [] ∨ ahead.head? = some '\n')
    (whole : behind ++ '#' :: body ++ ahead = cs) :
    IsComment cs tokens behind.length (behind ++ '#' :: body).length where
  sharp := by simp [← whole]
  ends := by
    rcases ended with rfl | ended
    · exact .inl (by rw [← whole, List.append_nil])
    · refine .inr ?_
      rw [← whole, List.getElem?_append_right (Nat.le_refl _), Nat.sub_self, ← List.head?_eq_getElem?]
      exact ended
  inline past short line := by
    rw [← whole, List.getElem?_append_left short, List.getElem?_append_right past] at line
    rcases List.mem_cons.mp (List.mem_of_getElem? line) with sharp | inside
    · cases sharp
    · exact inline inside
  free _ short token inside covers :=
    Nat.not_lt.mpr (rest.start_le token inside) (Nat.lt_of_le_of_lt covers.1 short)

/-- What no token covers is a blank, or belongs to a comment. -/
theorem gaps (tiles : Tiles file behind ahead tokens) (whole : behind ++ ahead = cs) {i : Nat}
    (beyond : behind.length ≤ i) (within : i < cs.length)
    (free : ∀ token ∈ tokens, ¬token.Covers i) :
    cs[i]? = some ' ' ∨ cs[i]? = some '\r' ∨
      ∃ first last, behind.length ≤ first ∧ first ≤ i ∧ i < last ∧ IsComment cs tokens first last := by
  -- the first tile has the character, or it lies further on
  induction tiles with
  | done behind =>
    rw [← whole, List.append_nil] at within
    exact absurd within (Nat.not_lt.mpr beyond)
  | @blank behind ahead tokens c skipped _ ih =>
    rcases Nat.eq_or_lt_of_le beyond with rfl | beyond
    · have here : cs[behind.length]? = some c := by simp [← whole]
      rcases skipped with rfl | rfl
      · exact .inl here
      · exact .inr (.inl here)
    · have beyond : (behind ++ [c]).length ≤ i := by simpa using Nat.succ_le_of_lt beyond
      rcases ih (by simpa using whole) beyond free with blank | blank | ⟨first, last, past, comment⟩
      · exact .inl blank
      · exact .inr (.inl blank)
      · refine .inr (.inr ⟨first, last, Nat.le_trans ?_ past, comment⟩)
        simp
  | @comment behind ahead tokens body inline ended rest ih =>
    have length : (behind ++ '#' :: body).length = behind.length + (body.length + 1) := by simp
    by_cases here : i < (behind ++ '#' :: body).length
    · have comment := rest.isComment inline ended (by simpa using whole)
      exact .inr (.inr ⟨behind.length, _, Nat.le_refl _, beyond, here, comment⟩)
    · rcases ih (by simpa using whole) (Nat.le_of_not_lt here) free with
        blank | blank | ⟨first, last, past, comment⟩
      · exact .inl blank
      · exact .inr (.inl blank)
      · exact .inr (.inr ⟨first, last, by omega, comment⟩)
  | @token behind ahead tokens c more kind literal _ rest ih =>
    obtain ⟨here, free⟩ := List.forall_mem_cons.mp free
    have beyond : (behind ++ c :: more).length ≤ i := by
      by_contra short
      exact here ⟨by rw [Position.index_origin_after]; exact beyond,
        by rw [Position.index_origin_after]; omega⟩
    rcases ih (by simpa using whole) beyond free with blank | blank | ⟨first, last, past, comment⟩
    · exact .inl blank
    · exact .inr (.inl blank)
    · refine .inr (.inr ⟨first, last, ?_, comment.1, comment.2.1, comment.2.2.cons ?_⟩)
      · rw [List.length_append] at past
        omega
      · rwa [Position.index_origin_after]

end Tiles

/-- Characters that have been taken already are passed over. -/
theorem scanFrom_skip (file : SourceFile) (taken rest : List Char) (p : Position)
    (scanned : List Token) :
    scanFrom file (taken ++ rest) taken.length p scanned =
      scanFrom file rest 0 (p.after taken) scanned := by
  induction taken generalizing p with
  | nil => rfl
  | cons c taken ih => exact ih (p.next c)

/-- What is scanned from a place on tiles what is left of the text. -/
theorem scanFrom_tiles {file : SourceFile} {behind ahead : List Char} {scanned tokens : List Token}
    (done : scanFrom file ahead 0 (Position.origin.after behind) scanned = .ok tokens) :
    ∃ found, tokens = scanned.reverse ++ found ∧ Tiles file behind ahead found := by
  -- on how much is left; a step may take more than its first character
  induction length : ahead.length using Nat.strongRecOn generalizing behind ahead scanned with
  | ind n ih =>
    subst length
    cases ahead with
    | nil =>
      cases done
      exact ⟨_, List.reverse_cons, .done behind⟩
    | cons c rest =>
      have fits := Step.recognize_fits c rest
      rw [scanFrom] at done
      -- how the scan goes on behind the characters of the step
      have goesOn {taken ahead : List Char} {more : Nat} {scanned : List Token}
          (whole : taken ++ ahead = rest) (size : taken.length = more)
          (done : scanFrom file rest more ((Position.origin.after behind).next c) scanned =
            .ok tokens) :
          ∃ found, tokens = scanned.reverse ++ found ∧
            Tiles file (behind ++ c :: taken) ahead found := by
        subst whole size
        rw [scanFrom_skip] at done
        have place : ((Position.origin.after behind).next c).after taken =
            Position.origin.after (behind ++ c :: taken) :=
          (Position.after_append .origin behind (c :: taken)).symm
        rw [place] at done
        exact ih ahead.length (by simp only [List.length_append, List.length_cons]; omega) done rfl
      cases step : Step.recognize c rest with
      | blank more =>
        rw [step] at done
        rcases Step.skips_of_recognize step with ⟨skipped, rfl⟩ | ⟨rfl, rfl⟩
        · obtain ⟨found, rfl, tiles⟩ := goesOn (List.nil_append rest) rfl done
          exact ⟨found, rfl, .blank skipped tiles⟩
        · have whole : rest.takeWhile (· != '\n') ++ rest.dropWhile (· != '\n') = rest :=
            List.takeWhile_append_dropWhile
          obtain ⟨found, rfl, tiles⟩ := goesOn whole rfl done
          refine ⟨found, rfl, ?_⟩
          rw [← whole]
          refine .comment (fun inside => ?_) ?_ tiles
          · simpa using List.mem_takeWhile_imp inside
          · cases left : rest.dropWhile (· != '\n') with
            | nil => exact .inl rfl
            | cons d others =>
              have stop := List.head?_dropWhile_not (· != '\n') rest
              rw [left] at stop
              exact .inr (congrArg some (by simpa using stop))
      | token kind literal more =>
        rw [step] at done fits
        obtain ⟨found, rfl, tiles⟩ :=
          goesOn (List.take_append_drop more rest) (List.length_take_of_le fits.2) done
        refine ⟨_ :: found, by rw [List.reverse_cons, List.append_assoc]; rfl, ?_⟩
        rw [← Position.after_append]
        have whole : c :: rest = c :: rest.take more ++ rest.drop more := by simp
        exact whole ▸ .token fits.1 tiles
      | fault _ _ _ =>
        rw [step] at done
        cases done

/-- The tokens of a text tile it, with each tab counted as four blanks. The end of file comes last,
at the end of the text, and is the only token without characters; each token ends no later than the
next begins and is spelled as the characters that its span covers; the lines and columns of all
spans are those of the text; and a character that no token covers is a blank or belongs to a
comment, which goes on up to a line break or the end of the text. -/
theorem scan_tiles (name text : String) {tokens : List Token}
    (scanned : scan name text = .ok tokens) :
    let cs := expandTabs text.toList
    (∃ body close, tokens = body ++ [close] ∧ close.kind = .eof ∧ close.lexeme = "" ∧
      close.span.start.index = cs.length ∧ close.span.stop = close.span.start ∧
        ∀ token ∈ body, token.kind ≠ .eof ∧ token.span.start.index < token.span.stop.index) ∧
    tokens.Pairwise (fun first second => first.span.stop.index ≤ second.span.start.index) ∧
    (∀ token ∈ tokens, token.Spells cs) ∧
    ∀ i < cs.length, (∀ token ∈ tokens, ¬token.Covers i) →
      cs[i]? = some ' ' ∨ cs[i]? = some '\r' ∨
        ∃ first last, first ≤ i ∧ i < last ∧ IsComment cs tokens first last := by
  intro cs
  obtain ⟨found, rfl, tiles⟩ : ∃ found, tokens = [].reverse ++ found ∧ Tiles _ [] cs found :=
    scanFrom_tiles scanned
  have whole : [] ++ cs = cs := List.nil_append cs
  refine ⟨tiles.closed whole, tiles.ordered, tiles.spells whole, fun i within free => ?_⟩
  rcases tiles.gaps whole (Nat.zero_le i) within free with
    blank | blank | ⟨first, last, _, comment⟩
  · exact .inl blank
  · exact .inr (.inl blank)
  · exact .inr (.inr ⟨first, last, comment⟩)

/-- A comment between two lines, with a tab in front of it: the blanks and the comment lie between
the tokens of the name and of the line break. -/
theorem scan_tiles_comment :
    let text := "a\t# b\n'\x00'"
    let cs := expandTabs text.toList
    ∃ tokens, scan "m" text = .ok tokens ∧ tokens.map (·.span.start.index) = [0, 8, 9, 12] ∧
      tokens.Pairwise (fun first second => first.span.stop.index ≤ second.span.start.index) ∧
      (∀ token ∈ tokens, token.Spells cs) ∧
      ∀ i < cs.length, (∀ token ∈ tokens, ¬token.Covers i) →
        cs[i]? = some ' ' ∨ cs[i]? = some '\r' ∨
          ∃ first last, first ≤ i ∧ i < last ∧ IsComment cs tokens first last := by
  intro text cs
  cases scanned : scan "m" text with
  | ok tokens =>
    have places : (scan "m" text).toOption.map (List.map (·.span.start.index)) =
        some [0, 8, 9, 12] := by decide +kernel
    rw [scanned] at places
    have tiles := scan_tiles "m" text scanned
    exact ⟨tokens, rfl, Option.some.inj places, tiles.2⟩
  | error d =>
    have good : (scan "m" text).toOption.isSome = true := by decide +kernel
    rw [scanned] at good
    cases good

end Token

end BasicScript
