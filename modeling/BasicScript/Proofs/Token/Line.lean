import BasicScript.Proofs.Node.Relocation

/-! Scanning line by line. Nothing that a scanner recognizes reaches over the end of a line, so what
it finds in a text is found again when a line break and another text follow, and what it finds in
the other text is found again further on. -/

set_option autoImplicit false

namespace BasicScript

namespace Step

def isFault : Step → Bool
  | .fault _ _ _ => true
  | .blank _ | .token _ _ _ => false

/-- A step that takes at most `length` characters behind its first, that is no end of file, and
whose fault is none of a running program and does not end before it starts. -/
def Fits (length : Nat) : Step → Prop
  | .blank more => more ≤ length
  | .token kind _ more => kind ≠ .eof ∧ more ≤ length
  | .fault cause start stop => cause.kind.phase ≠ .runtime ∧ start ≤ stop

variable {rest : List Char}

section Front

variable {p : Char → Bool} (stops : p '\n' = false) (rest others : List Char)

include stops

theorem takeWhile_line : (rest ++ '\n' :: others).takeWhile p = rest.takeWhile p := by
  induction rest with
  | nil => simp [stops]
  | cons c rest ih => cases wanted : p c <;> simp [wanted, ih]

theorem dropWhile_line :
    (rest ++ '\n' :: others).dropWhile p = rest.dropWhile p ++ '\n' :: others := by
  induction rest with
  | nil => simp [stops]
  | cons c rest ih => cases wanted : p c <;> simp [wanted, ih]

end Front

theorem length_takeWhile_le (p : Char → Bool) (rest : List Char) :
    (rest.takeWhile p).length ≤ rest.length :=
  (List.takeWhile_prefix p).length_le

theorem head?_line {c : Char} (other : c ≠ '\n') (rest others : List Char) :
    ((rest ++ '\n' :: others).head? = some c) = (rest.head? = some c) := by
  cases rest with
  | nil => simp [other.symm]
  | cons d rest => rfl

theorem sign_line {second : Char} {long short : TokenKind} (other : second ≠ '\n')
    (others : List Char) :
    sign (rest ++ '\n' :: others) second long short = sign rest second long short := by
  simp only [sign, head?_line other rest others]

theorem long_fits {kind : TokenKind} {second : Char} (real : kind ≠ .eof)
    (first : rest.head? = some second) : (Step.token kind none 1).Fits rest.length := by
  obtain ⟨others, rfl⟩ := List.head?_eq_some_iff.mp first
  exact ⟨real, Nat.le_add_left 1 _⟩

theorem sign_fits {second : Char} {long short : TokenKind} (real : long ≠ .eof ∧ short ≠ .eof) :
    (sign rest second long short).Fits rest.length := by
  unfold sign
  split
  case isTrue first => exact long_fits real.1 first
  case isFalse => exact ⟨real.2, Nat.zero_le _⟩

/-! ### Strings -/

theorem ne_backslash {c : Char} (last : c = '\\' → rest = [] → False)
    (inner : ∀ d others, c = '\\' → rest = d :: others → False) : c ≠ '\\' := by
  rintro rfl
  cases rest with
  | nil => exact last rfl rfl
  | cons d others => exact inner d others rfl rfl

theorem quoted_cons {quote c : Char} (plain : c ≠ '\\') (rest : List Char) (taken : Nat)
    (text : List Char) : quoted quote (c :: rest) taken text =
      if c = quote then .token .string (some (.text (String.ofList text.reverse))) (taken + 1)
      else if c = '\n' then .fault (.unterminatedString quote) 0 (taken + 1)
      else quoted quote rest (taken + 1) (c :: text) := by
  rw [quoted]
  · exact fun same _ => plain same
  · exact fun _ _ same _ => plain same

/-- A string that ends in the text ends there whatever follows. -/
theorem quoted_append {quote : Char} {taken : Nat} {text : List Char}
    (closed : (quoted quote rest taken text).isFault = false) (others : List Char) :
    quoted quote (rest ++ others) taken text = quoted quote rest taken text := by
  fun_induction quoted quote rest taken text with
  | case1 | case2 | case4 | case6 => cases closed
  | case3 c rest taken text d known ih =>
    rw [List.cons_append, List.cons_append, quoted, known]
    exact ih closed
  | case5 rest taken text last inner =>
    rw [List.cons_append, quoted_cons (ne_backslash last inner), if_pos rfl]
  | case7 c rest taken text last inner other inline ih =>
    rw [List.cons_append, quoted_cons (ne_backslash last inner), if_neg other, if_neg inline]
    exact ih closed

theorem Fits.mono {step : Step} {m n : Nat} (fits : step.Fits m) (more : m ≤ n) : step.Fits n := by
  cases step with
  | blank _ => exact Nat.le_trans fits more
  | token _ _ _ => exact ⟨fits.1, Nat.le_trans fits.2 more⟩
  | fault _ _ _ => exact fits

theorem quoted_fits (quote : Char) (taken : Nat) (text : List Char) :
    (quoted quote rest taken text).Fits (taken + rest.length) := by
  fun_induction quoted quote rest taken text with
  | case1 | case2 | case4 | case6 => exact ⟨nofun, by omega⟩
  | case3 c rest taken text d known ih =>
    exact ih.mono (by simp only [List.length_cons]; omega)
  | case5 rest taken text _ _ =>
    exact ⟨nofun, by simp only [List.length_cons]; omega⟩
  | case7 c rest taken text _ _ _ _ ih =>
    exact ih.mono (by simp only [List.length_cons]; omega)

/-! ### Numbers and words -/

theorem integer_fits (whole : List Char) : (integer whole).Fits (whole.length - 1) := by
  unfold integer
  split
  · exact ⟨nofun, Nat.le_refl _⟩
  · exact ⟨nofun, Nat.zero_le _⟩

def numberFrom (whole : List Char) : List Char → Step
  | '.' :: behind =>
    let fraction := behind.takeWhile Char.isDigit
    if fraction.isEmpty then integer whole
    else .token .float (some (.float (Number.ofFraction whole fraction)))
      (whole.length + fraction.length)
  | _ => integer whole

theorem number_eq (c : Char) : number c rest =
    numberFrom (c :: rest.takeWhile Char.isDigit) (rest.dropWhile Char.isDigit) := rfl

theorem numberFrom_line (whole tail others : List Char) :
    numberFrom whole (tail ++ '\n' :: others) = numberFrom whole tail := by
  cases tail with
  | nil => rfl
  | cons d tail =>
    by_cases point : d = '.'
    · subst point
      simp only [List.cons_append, numberFrom, takeWhile_line (p := Char.isDigit) rfl]
    · have plain (behind : List Char) : numberFrom whole (d :: behind) = integer whole := by
        unfold numberFrom
        split
        case h_1 same => exact absurd (List.cons.inj same).1 point
        case h_2 => rfl
      rw [List.cons_append, plain, plain]

theorem numberFrom_fits (whole tail : List Char) :
    (numberFrom whole tail).Fits (whole.length - 1 + tail.length) := by
  unfold numberFrom
  split
  case h_1 behind =>
    dsimp only
    split
    · exact (integer_fits whole).mono (Nat.le_add_right _ _)
    · have := length_takeWhile_le Char.isDigit behind
      exact ⟨nofun, by simp only [List.length_cons]; omega⟩
  case h_2 => exact (integer_fits whole).mono (Nat.le_add_right _ _)

/-- A line break is no digit and no point, so it ends a number like the end of the text. -/
theorem number_line (c : Char) (others : List Char) :
    number c (rest ++ '\n' :: others) = number c rest := by
  rw [number_eq, number_eq, takeWhile_line rfl, dropWhile_line rfl, numberFrom_line]

theorem number_fits (c : Char) : (number c rest).Fits rest.length := by
  have split := congrArg List.length (List.takeWhile_append_dropWhile (p := Char.isDigit) (l := rest))
  rw [number_eq]
  refine (numberFrom_fits _ _).mono (Nat.le_of_eq ?_)
  rwa [List.length_cons, Nat.add_sub_cancel, ← List.length_append]

theorem word_line (c : Char) (others : List Char) :
    word c (rest ++ '\n' :: others) = word c rest := by
  simp only [word, takeWhile_line (p := isNameChar) rfl]

theorem word_fits (c : Char) : (word c rest).Fits rest.length := by
  have short := length_takeWhile_le isNameChar rest
  unfold word
  dsimp only
  split
  · exact ⟨nofun, short⟩
  · exact ⟨nofun, short⟩

/-! ### Steps -/

/-- What stands at the front of a line does not depend on what follows the line. -/
theorem recognize_line (c : Char) (rest : List Char) (good : (recognize c rest).isFault = false)
    (others : List Char) :
    recognize c (rest ++ '\n' :: others) = recognize c rest := by
  have arrow := head?_line (c := '>') (by decide) rest others
  have equal := head?_line (c := '=') (by decide) rest others
  have comment := takeWhile_line (p := (· != '\n')) rfl rest others
  unfold recognize at good ⊢
  split <;>
    try simp only [arrow, equal, comment, number_line, word_line, sign_line, ne_eq, Char.reduceEq,
      not_false_eq_true]
  -- a string could hold what follows, if it did not end before
  · exact quoted_append good _
  · exact quoted_append good _

theorem recognize_fits (c : Char) (rest : List Char) : (recognize c rest).Fits rest.length := by
  have string (quote : Char) : (quoted quote rest 0 []).Fits rest.length :=
    (quoted_fits quote 0 []).mono (by omega)
  unfold recognize
  -- most characters stand for themselves, or begin a sign
  split <;> first
    | exact Nat.zero_le _
    | exact ⟨nofun, Nat.zero_le _⟩
    | exact sign_fits ⟨nofun, nofun⟩
    | exact string _
    | skip
  case h_3 => exact length_takeWhile_le _ _
  case h_18 =>
    split
    case isTrue first => exact long_fits nofun first
    case isFalse => exact sign_fits ⟨nofun, nofun⟩
  case h_24 =>
    split
    case isTrue first => exact long_fits nofun first
    case isFalse => exact ⟨nofun, Nat.zero_le _⟩
  case h_27 =>
    split
    · exact number_fits _
    · split
      · exact word_fits _
      · exact ⟨nofun, Nat.zero_le _⟩

end Step

namespace Position

def shift (p : Position) (characters lines : Nat) : Position :=
  ⟨p.index + characters, p.line + lines, p.column⟩

variable (p : Position) (characters lines : Nat)

theorem shift_next (c : Char) :
    (p.next c).shift characters lines = (p.shift characters lines).next c := by
  unfold next
  split
  · simp only [shift, Nat.add_right_comm]
  · simp only [shift, Nat.add_right_comm]

theorem shift_after (cs : List Char) :
    (p.after cs).shift characters lines = (p.shift characters lines).after cs := by
  induction cs generalizing p with
  | nil => rfl
  | cons c cs ih => rw [after, List.foldl_cons, ← after, ih, shift_next]; rfl

/-- The place at the start of the line behind `cs`. -/
theorem next_after_newline (cs : List Char) :
    (p.after cs).next '\n' =
      ⟨p.index + (cs.length + 1), p.line + (cs.count '\n' + 1), 0⟩ := by
  induction cs generalizing p with
  | nil => rfl
  | cons c cs ih =>
    rw [after, List.foldl_cons, ← after, ih, List.length_cons, List.count_cons]
    by_cases line : c = '\n'
    · subst line
      simp only [next, ↓reduceIte, beq_self_eq_true, Position.mk.injEq, and_true]
      omega
    · simp only [next, if_neg line, beq_iff_eq, Position.mk.injEq, and_true]
      omega

end Position

def Relocation.shift (file : SourceFile) (characters lines : Nat) : Relocation where
  span s := ⟨file, s.start.shift characters lines, s.stop.shift characters lines⟩
  upTo _ _ := rfl
  single _ := rfl

namespace Token

variable {file : SourceFile} {cs : List Char} {skip : Nat} {p : Position}
  {scanned tokens : List Token}

/-- What is found in a text is found anywhere, behind what has been found there before. -/
theorem scanFrom_shift (other : SourceFile) (characters lines : Nat)
    (done : scanFrom file cs skip p scanned = .ok tokens) (before : List Token) :
    scanFrom other cs skip (p.shift characters lines)
      (scanned.map (relocate (.shift other characters lines)) ++ before) =
        .ok (before.reverse ++ tokens.map (relocate (.shift other characters lines))) := by
  -- what the scanner does next depends on the characters alone, so both go on alike
  induction cs generalizing skip p scanned with
  | nil =>
    cases done
    simp [scanFrom, relocate, Relocation.shift, Span.single]
  | cons c rest ih =>
    cases skip with
    | succ skip =>
      rw [scanFrom, ← Position.shift_next]
      exact ih done
    | zero =>
      rw [scanFrom] at done ⊢
      cases step : Step.recognize c rest with
      | blank more =>
        rw [step] at done
        rw [← Position.shift_next]
        exact ih done
      | token kind literal more =>
        rw [step] at done
        rw [← Position.shift_next]
        have := ih done
        simpa [relocate, Relocation.shift, Position.shift_after] using this
      | fault _ _ _ =>
        rw [step] at done
        cases done

def lineBreak (file : SourceFile) (p : Position) : Token :=
  ⟨.newline, "\n", none, ⟨file, p, p.next '\n'⟩⟩

/-- A text that can be scanned goes on with any other text behind a line break, where its end of
file would stand. -/
theorem scanFrom_line (done : scanFrom file cs skip p scanned = .ok tokens)
    (within : skip ≤ cs.length) (real : ∀ token ∈ scanned, token.kind ≠ .eof) :
    ∃ found, tokens = (⟨.eof, "", none, .single file (p.after cs)⟩ :: found).reverse ∧
      (∀ token ∈ found, token.kind ≠ .eof) ∧
      ∀ others, scanFrom file (cs ++ '\n' :: others) skip p scanned =
        scanFrom file others 0 ((p.after cs).next '\n') (lineBreak file (p.after cs) :: found) := by
  -- on the text; the first `skip` characters belong to a token that has been found already, and as
  -- no token reaches over the end of the text, none are left to skip at the line break
  induction cs generalizing skip p scanned with
  | nil =>
    cases done
    obtain rfl : skip = 0 := Nat.le_zero.mp within
    exact ⟨scanned, rfl, real, fun _ => rfl⟩
  | cons c rest ih =>
    cases skip with
    | succ skip => exact ih done (Nat.le_of_succ_le_succ within) real
    | zero =>
      have fits := Step.recognize_fits c rest
      have line := Step.recognize_line c rest
      rw [scanFrom] at done
      cases step : Step.recognize c rest with
      | blank more =>
        rw [step] at done fits line
        obtain ⟨found, whole, real, goesOn⟩ := ih done fits real
        refine ⟨found, whole, real, fun others => ?_⟩
        rw [List.cons_append, scanFrom, line rfl]
        exact goesOn others
      | token kind literal more =>
        rw [step] at done fits line
        obtain ⟨found, whole, real, goesOn⟩ :=
          ih done fits.2 (List.forall_mem_cons.mpr ⟨fits.1, real⟩)
        refine ⟨found, whole, real, fun others => ?_⟩
        have lexeme : (rest ++ '\n' :: others).take more = rest.take more :=
          List.take_append_of_le_length fits.2
        rw [List.cons_append, scanFrom, line rfl]
        dsimp only
        rw [lexeme]
        exact goesOn others
      | fault _ _ _ =>
        rw [step] at done
        cases done

theorem expandTabs_append (as bs : List Char) :
    expandTabs (as ++ bs) = expandTabs as ++ expandTabs bs := List.flatMap_append

/-- Tabs hold no line breaks. -/
theorem count_expandTabs (cs : List Char) : (expandTabs cs).count '\n' = cs.count '\n' := by
  induction cs with
  | nil => rfl
  | cons c cs ih =>
    have single := expandTabs_append [c] cs
    rw [List.singleton_append] at single
    rw [single, List.count_append, ih, List.count_cons, Nat.add_comm]
    by_cases tab : c = '\t'
    · subst tab
      simp [expandTabs]
    · simp [expandTabs, tab, List.count_singleton]

end Token

def SourceFile.ofText (name text : String) : SourceFile :=
  ⟨name, String.ofList (Token.expandTabs text.toList)⟩

namespace Relocation

variable (name above below : String)

def toAbove : Relocation := .shift (.ofText name (above ++ "\n" ++ below)) 0 0

def toBelow : Relocation :=
  .shift (.ofText name (above ++ "\n" ++ below)) ((Token.expandTabs above.toList).length + 1)
    (above.toList.count '\n' + 1)

end Relocation

namespace Token

/-- Two texts that can be scanned can be scanned one below the other. The tokens of the first stay
where they are, a line break takes the place of its end of file, and the tokens of the second move
on. -/
theorem scan_line {first second above below : String} {upper lower : List Token}
    (upperScanned : scan first above = .ok upper) (lowerScanned : scan second below = .ok lower)
    (name : String) : ∃ body close line, upper = body ++ [close] ∧ close.kind = .eof ∧
      (∀ token ∈ body, token.kind ≠ .eof) ∧ line.kind = .newline ∧
      scan name (above ++ "\n" ++ below) =
        .ok (body.map (relocate (.toAbove name above below)) ++
          line :: lower.map (relocate (.toBelow name above below))) := by
  let cs := expandTabs above.toList
  let file : SourceFile := .ofText name (above ++ "\n" ++ below)
  let line := lineBreak file (Position.origin.after cs)
  obtain ⟨body, rfl, real, _⟩ := scanFrom_line upperScanned (Nat.zero_le _) (List.forall_mem_nil _)
  refine ⟨body.reverse, _, line, List.reverse_cons, rfl, fun token inside =>
    real token (List.mem_reverse.mp inside), rfl, ?_⟩
  -- first the upper text, as it is found in the joined file, then what follows behind the line break
  have stays := scanFrom_shift file 0 0 upperScanned []
  obtain ⟨found, whole, _, goesOn⟩ := scanFrom_line stays (Nat.zero_le _) (List.forall_mem_nil _)
  rw [List.reverse_nil, List.nil_append, List.map_reverse] at whole
  obtain rfl := (List.cons.inj (List.reverse_inj.mp whole)).2
  have moved := scanFrom_shift file (cs.length + 1) (above.toList.count '\n' + 1)
    lowerScanned (line :: body.map (relocate (.shift file 0 0)))
  have text : expandTabs (above ++ "\n" ++ below).toList =
      cs ++ '\n' :: expandTabs below.toList := by
    simp [cs, expandTabs]
  have start : (Position.origin.after cs).next '\n' =
      Position.origin.shift (cs.length + 1) (above.toList.count '\n' + 1) := by
    rw [Position.next_after_newline, count_expandTabs]
    simp [Position.shift, Position.origin]
  rw [← start] at moved
  show scanFrom file (expandTabs (above ++ "\n" ++ below).toList) 0 .origin [] = _
  rw [text]
  refine (goesOn _).trans (moved.trans ?_)
  rw [List.reverse_cons, ← List.map_reverse, List.append_assoc]
  rfl

end Token

end BasicScript
