import BasicScript.Proofs.Token.Tiling

/-! Lexemes and literals. What a scanner recognizes is recognized again when only its own characters
are left and a blank, or nothing, follows them. So the lexemes of a text, with a blank between any
two, are a text of the same tokens. Numbers and strings carry literals of their own kind. -/

set_option autoImplicit false

namespace BasicScript

def Parted (tail : List Char) : Prop := ∀ c ∈ tail.head?, c = ' '

theorem Parted.nil : Parted [] := nofun

theorem Parted.blank (rest : List Char) : Parted (' ' :: rest) := by
  rintro c ⟨⟩
  rfl

namespace Step

variable {c quote : Char} {rest tail text : List Char} {kind : TokenKind} {literal : Option Literal}
  {more taken : Nat}

section Parts

variable {p : Char → Bool}

/-- What a blank ends stays as long as it is. -/
theorem takeWhile_parted (stops : p ' ' = false) (parted : Parted tail) {front : List Char}
    (inside : ∀ c ∈ front, p c = true) : (front ++ tail).takeWhile p = front := by
  rw [List.takeWhile_append_of_pos inside]
  cases tail with
  | nil => exact List.append_nil front
  | cons d rest =>
    obtain rfl : d = ' ' := parted d rfl
    rw [List.takeWhile_cons_of_neg (by simp [stops]), List.append_nil]

theorem dropWhile_parted (stops : p ' ' = false) (parted : Parted tail) {front : List Char}
    (inside : ∀ c ∈ front, p c = true) : (front ++ tail).dropWhile p = tail := by
  have whole := List.takeWhile_append_dropWhile (p := p) (l := front ++ tail)
  rw [takeWhile_parted stops parted inside] at whole
  exact List.append_cancel_left whole

theorem take_takeWhile (p : Char → Bool) (rest : List Char) :
    rest.take (rest.takeWhile p).length = rest.takeWhile p :=
  (List.prefix_iff_eq_take.mp (List.takeWhile_prefix p)).symm

end Parts

theorem head?_take {second : Char} (first : rest.head? = some second) {more : Nat} (some : more = 1)
    (tail : List Char) : (rest.take more ++ tail).head? = .some second := by
  obtain ⟨others, rfl⟩ := List.head?_eq_some_iff.mp first
  rw [some]
  rfl

/-- Cutting a text down in front of a blank does not put a sign at its front. -/
theorem head?_take_parted {second : Char} (other : second ≠ ' ') (parted : Parted tail)
    (first : rest.head? ≠ some second) (n : Nat) : (rest.take n ++ tail).head? ≠ some second := by
  obtain _ | ⟨d, rest⟩ := rest
  · rw [List.take_nil]
    exact fun same => other (parted second same)
  · cases n with
    | zero => exact fun same => other (parted second same)
    | succ n => exact first

theorem sign_parted {second : Char} {long short : TokenKind} (other : second ≠ ' ')
    (parted : Parted tail) (found : sign rest second long short = .token kind literal more) :
    sign (rest.take more ++ tail) second long short = .token kind literal more := by
  unfold sign at found
  split at found
  case isTrue first =>
    cases found
    exact if_pos (head?_take first rfl tail)
  case isFalse first =>
    cases found
    exact if_neg (head?_take_parted other parted first 0)

/-! ### Strings -/

/-- A string ends with the quote that closes it, and what follows does not matter. -/
theorem quoted_take (found : quoted quote rest taken text = .token kind literal more) :
    taken + 1 ≤ more ∧ ∀ tail, quoted quote (rest.take (more - taken) ++ tail) taken text =
      .token kind literal more := by
  fun_induction quoted quote rest taken text with
  | case1 | case2 | case4 | case6 => cases found
  | case3 c rest taken text d known ih =>
    obtain ⟨far, again⟩ := ih found
    obtain ⟨n, left⟩ : ∃ n, more - taken = n + 2 := ⟨more - taken - 2, by omega⟩
    refine ⟨by omega, fun tail => ?_⟩
    rw [left, List.take_succ_cons, List.take_succ_cons, List.cons_append, List.cons_append, quoted,
      known]
    have := again tail
    rwa [show more - (taken + 2) = n by omega] at this
  | case5 rest taken text last inner =>
    cases found
    refine ⟨Nat.le_refl _, fun tail => ?_⟩
    rw [Nat.add_sub_cancel_left, List.take_succ_cons, List.cons_append,
      quoted_cons (ne_backslash last inner), if_pos rfl]
  | case7 c rest taken text last inner other inline ih =>
    obtain ⟨far, again⟩ := ih found
    obtain ⟨n, left⟩ : ∃ n, more - taken = n + 1 := ⟨more - taken - 1, by omega⟩
    refine ⟨by omega, fun tail => ?_⟩
    rw [left, List.take_succ_cons, List.cons_append, quoted_cons (ne_backslash last inner),
      if_neg other, if_neg inline]
    have := again tail
    rwa [show more - (taken + 1) = n by omega] at this

theorem string_parted (found : quoted quote rest 0 [] = .token kind literal more) :
    quoted quote (rest.take more ++ tail) 0 [] = .token kind literal more :=
  (quoted_take found).2 tail

/-! ### Numbers and words -/

theorem more_of_integer {whole : List Char} (found : integer whole = .token kind literal more) :
    more = whole.length - 1 := by
  unfold integer at found
  split at found <;> cases found
  rfl

theorem numberFrom_parted (parted : Parted tail) (whole : List Char) :
    numberFrom whole tail = integer whole := by
  cases tail with
  | nil => rfl
  | cons d rest =>
    obtain rfl : d = ' ' := parted d rfl
    rfl

section Digits

variable {digits fraction : List Char} (parted : Parted tail)
  (inside : ∀ d ∈ digits, d.isDigit = true)

include parted inside

theorem number_of_whole : number c (digits ++ tail) = integer (c :: digits) := by
  rw [number_eq, takeWhile_parted rfl parted inside, dropWhile_parted rfl parted inside,
    numberFrom_parted parted]

theorem number_of_fraction (real : fraction.isEmpty = false)
    (behind : ∀ d ∈ fraction, d.isDigit = true) :
    number c (digits ++ '.' :: fraction ++ tail) =
      .token .float (some (.float (Number.ofFraction (c :: digits) fraction)))
        ((c :: digits).length + fraction.length) := by
  have point : ('.' :: (fraction ++ tail)).takeWhile Char.isDigit = [] := rfl
  have whole : (digits ++ '.' :: fraction ++ tail).takeWhile Char.isDigit = digits := by
    rw [List.append_assoc, List.cons_append, List.takeWhile_append_of_pos inside, point,
      List.append_nil]
  have left : (digits ++ '.' :: fraction ++ tail).dropWhile Char.isDigit =
      '.' :: (fraction ++ tail) := by
    rw [List.append_assoc, List.cons_append, List.dropWhile_append_of_pos inside]
    rfl
  have ends : (fraction ++ tail).takeWhile Char.isDigit = fraction :=
    takeWhile_parted rfl parted behind
  simp only [number_eq, whole, left, numberFrom, ends, real]
  rfl

end Digits

theorem number_parted (parted : Parted tail) (found : number c rest = .token kind literal more) :
    number c (rest.take more ++ tail) = .token kind literal more := by
  let digits := rest.takeWhile Char.isDigit
  have inside : ∀ d ∈ digits, d.isDigit = true := fun _ => List.mem_takeWhile_imp
  -- without a fraction, the digits are all there is
  have short (found : integer (c :: digits) = .token kind literal more) :
      number c (rest.take more ++ tail) = .token kind literal more := by
    obtain rfl : more = digits.length := more_of_integer found
    rw [take_takeWhile, number_of_whole parted inside, found]
  rw [number_eq] at found
  unfold numberFrom at found
  split at found
  case h_2 => exact short found
  case h_1 behind left =>
    dsimp only at found
    split at found
    case isTrue => exact short found
    case isFalse some =>
      cases found
      have whole : rest = digits ++ '.' :: behind := by
        rw [← left]
        exact List.takeWhile_append_dropWhile.symm
      have front : rest.take ((c :: digits).length + (behind.takeWhile Char.isDigit).length) =
          digits ++ '.' :: behind.takeWhile Char.isDigit := by
        rw [whole, List.length_cons, Nat.add_assoc, List.take_length_add_append, Nat.add_comm 1,
          List.take_succ_cons, take_takeWhile]
      rw [front]
      exact number_of_fraction parted inside (Bool.eq_false_iff.mpr some)
        fun _ => List.mem_takeWhile_imp

theorem word_parted (parted : Parted tail) (found : word c rest = .token kind literal more) :
    word c (rest.take more ++ tail) = .token kind literal more := by
  have length : more = (rest.takeWhile isNameChar).length := by
    unfold word at found
    dsimp only at found
    split at found <;> cases found <;> rfl
  have same : (rest.take more ++ tail).takeWhile isNameChar = rest.takeWhile isNameChar := by
    rw [length, take_takeWhile]
    exact takeWhile_parted rfl parted fun _ => List.mem_takeWhile_imp
  rw [← found]
  simp only [word, same]

/-! ### Steps -/

/-- A token is recognized by its own characters. -/
theorem recognize_parted (parted : Parted tail) (found : recognize c rest = .token kind literal more) :
    recognize c (rest.take more ++ tail) = .token kind literal more := by
  unfold recognize at found ⊢
  -- most characters stand for themselves, or begin a sign or a string
  split <;> try first
    | (cases found; rfl)
    | exact sign_parted (by decide) parted found
    | exact string_parted found
  case h_3 | h_4 | h_5 => simp only [reduceCtorEq] at found
  case h_18 =>
    change (if rest.head? = some '>' then _ else _) = _ at found
    split at found
    case isTrue first =>
      cases found
      exact if_pos (head?_take first rfl tail)
    case isFalse first =>
      rw [if_neg (head?_take_parted (by decide) parted first more)]
      exact sign_parted (by decide) parted found
  case h_24 =>
    change (if rest.head? = some '=' then _ else _) = _ at found
    split at found
    case isTrue first =>
      cases found
      exact if_pos (head?_take first rfl tail)
    case isFalse => cases found
  case h_27 =>
    simp only at found
    split at found
    case isTrue digit => exact (if_pos digit).trans (number_parted parted found)
    case isFalse other =>
      split at found
      case isTrue letter =>
        exact (if_neg other).trans ((if_pos letter).trans (word_parted parted found))
      case isFalse => cases found

end Step

def Literal.kind : Literal → TokenKind
  | .integer _ => .integer
  | .float _ => .float
  | .text _ => .string

def TokenKind.isLiteral : TokenKind → Bool
  | .integer | .float | .string => true
  | _ => false

namespace Step

/-- A token of a number or a string carries a literal of its kind, and no other token carries
one. -/
def Typed : Step → Prop
  | .token kind literal _ => literal.map Literal.kind = if kind.isLiteral then some kind else none
  | .blank _ | .fault _ _ _ => True

theorem quoted_typed (quote : Char) (rest : List Char) (taken : Nat) (text : List Char) :
    (quoted quote rest taken text).Typed := by
  fun_induction quoted quote rest taken text with
  | case3 _ _ _ _ _ _ ih | case7 _ _ _ _ _ _ _ _ ih => exact ih
  | case5 => rfl
  | case1 | case2 | case4 | case6 => trivial

theorem integer_typed (whole : List Char) : (integer whole).Typed := by
  unfold integer
  split
  · rfl
  · trivial

theorem number_typed (c : Char) (rest : List Char) : (number c rest).Typed := by
  rw [number_eq]
  unfold numberFrom
  split
  case h_1 behind =>
    dsimp only
    split
    · exact integer_typed _
    · rfl
  case h_2 => exact integer_typed _

theorem word_typed (c : Char) (rest : List Char) : (word c rest).Typed := by
  unfold word
  dsimp only
  split <;> rfl

theorem sign_typed {rest : List Char} {second : Char} {long short : TokenKind}
    (bare : long.isLiteral = false ∧ short.isLiteral = false) : (sign rest second long short).Typed := by
  unfold sign
  split
  · simp [Typed, bare.1]
  · simp [Typed, bare.2]

theorem recognize_typed (c : Char) (rest : List Char) : (recognize c rest).Typed := by
  unfold recognize
  split <;> try first
    | trivial
    | exact sign_typed ⟨rfl, rfl⟩
    | exact quoted_typed _ _ _ _
  case h_18 =>
    split
    · rfl
    · exact sign_typed ⟨rfl, rfl⟩
  case h_24 =>
    split
    · rfl
    · trivial
  case h_27 =>
    split
    · exact number_typed _ _
    · split
      · exact word_typed _ _
      · trivial

end Step

namespace Token

def content (token : Token) : TokenKind × String × Option Literal :=
  (token.kind, token.lexeme, token.literal)

def FoundIn (cs : List Char) (token : Token) : Prop :=
  ∃ c rest more, c :: rest <:+ cs ∧ more ≤ rest.length ∧
    token.lexeme = String.ofList (c :: rest.take more) ∧
      Step.recognize c rest = .token token.kind token.literal more

/-- The token is what stands at the front of its own lexeme, if nothing or a blank follows. -/
def StandsAlone (token : Token) : Prop :=
  ∃ c more, token.lexeme.toList = c :: more ∧ '\t' ∉ c :: more ∧ ∀ tail, Parted tail →
    Step.recognize c (more ++ tail) = .token token.kind token.literal more.length

variable {file : SourceFile} {tokens scanned : List Token}

theorem scanFrom_foundIn {cs whole : List Char} {skip : Nat} {p : Position} (part : cs <:+ whole)
    (done : scanFrom file cs skip p scanned = .ok tokens)
    (found : ∀ token ∈ scanned, token.kind ≠ .eof → token.FoundIn whole) :
    ∀ token ∈ tokens, token.kind ≠ .eof → token.FoundIn whole := by
  induction cs generalizing skip p scanned with
  | nil =>
    cases done
    intro token inside real
    rcases List.mem_cons.mp (List.mem_reverse.mp inside) with rfl | inside
    · exact absurd rfl real
    · exact found token inside real
  | cons c rest ih =>
    -- what is left always is the end of the whole text
    have behind : rest <:+ whole := (List.suffix_cons c rest).trans part
    cases skip with
    | succ skip => exact ih behind done found
    | zero =>
      have fits := Step.recognize_fits c rest
      rw [scanFrom] at done
      cases step : Step.recognize c rest with
      | blank more =>
        rw [step] at done
        exact ih behind done found
      | token kind literal more =>
        rw [step] at done fits
        exact ih behind done (List.forall_mem_cons.mpr
          ⟨fun _ => ⟨c, rest, more, part, fits.2, rfl, step⟩, found⟩)
      | fault _ _ _ =>
        rw [step] at done
        cases done

theorem scan_foundIn {name text : String} (scanned : scan name text = .ok tokens) :
    ∀ token ∈ tokens, token.kind ≠ .eof → token.FoundIn (expandTabs text.toList) :=
  scanFrom_foundIn (List.suffix_refl _) scanned (List.forall_mem_nil _)

theorem tab_not_mem_expandTabs (cs : List Char) : '\t' ∉ expandTabs cs := by
  intro inside
  obtain ⟨c, _, inside⟩ := List.mem_flatMap.mp inside
  split at inside
  · simp at inside
  · exact absurd (List.mem_singleton.mp inside).symm ‹_›

theorem expandTabs_of_not_mem {cs : List Char} (tabless : '\t' ∉ cs) : expandTabs cs = cs := by
  induction cs with
  | nil => rfl
  | cons c cs ih =>
    have other : c ≠ '\t' := (List.ne_of_not_mem_cons tabless).symm
    rw [expandTabs, List.flatMap_cons, if_neg other, ← expandTabs,
      ih (List.not_mem_of_not_mem_cons tabless)]
    rfl

theorem FoundIn.standsAlone {cs : List Char} {token : Token} (found : token.FoundIn (expandTabs cs)) :
    token.StandsAlone := by
  obtain ⟨c, rest, more, part, within, lexeme, step⟩ := found
  refine ⟨c, rest.take more, by rw [lexeme, String.toList_ofList], fun tab => ?_, fun tail parted => ?_⟩
  · have front : (c :: rest.take more).Sublist (c :: rest) := (List.take_sublist more rest).cons_cons c
    exact tab_not_mem_expandTabs cs (part.subset (front.subset tab))
  · rw [List.length_take_of_le within]
    exact Step.recognize_parted parted step

/-- The literal of a token is of its kind. -/
theorem FoundIn.typed {cs : List Char} {token : Token} (found : token.FoundIn cs) :
    token.literal.map Literal.kind = if token.kind.isLiteral then some token.kind else none := by
  obtain ⟨c, rest, more, _, _, _, step⟩ := found
  have typed := Step.recognize_typed c rest
  rwa [step] at typed

def spaced (tokens : List Token) : List Char := [' '].intercalate (tokens.map (·.lexeme.toList))

/-- Behind the first of some lexemes stands a blank, unless it is the only one. -/
theorem spaced_cons (first : Token) (rest : List Token) :
    ∃ gap, (gap = [] ∨ gap = [' ']) ∧ Parted (gap ++ spaced rest) ∧
      spaced (first :: rest) = first.lexeme.toList ++ (gap ++ spaced rest) := by
  cases rest with
  | nil => exact ⟨[], .inl rfl, .nil, by simp [spaced]⟩
  | cons second rest => exact ⟨[' '], .inr rfl, .blank _, by simp [spaced]⟩

theorem tab_not_mem_spaced (alone : ∀ token ∈ tokens, token.StandsAlone) : '\t' ∉ spaced tokens := by
  induction tokens with
  | nil => exact List.not_mem_nil
  | cons first rest ih =>
    obtain ⟨⟨c, more, spelled, tabless, _⟩, alone⟩ := List.forall_mem_cons.mp alone
    obtain ⟨gap, blank, _, whole⟩ := spaced_cons first rest
    have gapless : '\t' ∉ gap := by rcases blank with rfl | rfl <;> decide
    rw [whole, spelled]
    simp only [List.mem_append, not_or]
    exact ⟨tabless, gapless, ih alone⟩

theorem scanFrom_token {c : Char} {more tail : List Char} {kind : TokenKind}
    {literal : Option Literal} {p : Position}
    (found : Step.recognize c (more ++ tail) = .token kind literal more.length) :
    scanFrom file (c :: more ++ tail) 0 p scanned = scanFrom file tail 0 (p.after (c :: more))
      (⟨kind, String.ofList (c :: more), literal, ⟨file, p, p.after (c :: more)⟩⟩ :: scanned) := by
  rw [List.cons_append, scanFrom, found]
  dsimp only
  rw [scanFrom_skip, List.take_left]
  rfl

/-- Lexemes that stand alone are scanned one by one. -/
theorem scanFrom_spaced (file : SourceFile) (p : Position) (scanned : List Token)
    (alone : ∀ token ∈ tokens, token.StandsAlone) :
    ∃ again, scanFrom file (spaced tokens) 0 p scanned = .ok (scanned.reverse ++ again) ∧
      again.map content = tokens.map content ++ [(.eof, "", none)] := by
  induction tokens generalizing p scanned with
  | nil => exact ⟨[⟨.eof, "", none, .single file p⟩], congrArg Except.ok List.reverse_cons, rfl⟩
  | cons first rest ih =>
    obtain ⟨⟨c, more, spelled, _, found⟩, alone⟩ := List.forall_mem_cons.mp alone
    obtain ⟨gap, blank, parted, whole⟩ := spaced_cons first rest
    have lexeme : String.ofList (c :: more) = first.lexeme := spelled ▸ String.ofList_toList
    have behind (p : Position) (scanned : List Token) :
        scanFrom file (gap ++ spaced rest) 0 p scanned =
          scanFrom file (spaced rest) 0 (p.after gap) scanned := by
      rcases blank with rfl | rfl <;> rfl
    let token : Token := { first with span := ⟨file, p, p.after (c :: more)⟩ }
    obtain ⟨again, done, same⟩ := ih ((p.after (c :: more)).after gap) (token :: scanned) alone
    refine ⟨token :: again, ?_, ?_⟩
    · rw [whole, spelled, scanFrom_token (found _ parted), behind, lexeme, done, List.reverse_cons,
        List.append_assoc]
      rfl
    · rw [List.map_cons, same]
      rfl

/-- The lexemes of a text, with single blanks between them, are a text of the same tokens, with the
same literals. -/
theorem scan_respaced {name text : String} {tokens : List Token}
    (scanned : scan name text = .ok tokens) (other : String) :
    ∃ again, scan other (" ".intercalate
        ((tokens.filter fun token => token.kind ≠ .eof).map lexeme)) = .ok again ∧
      again.map content = tokens.map content := by
  obtain ⟨found, rfl, real, -⟩ := scanFrom_line scanned (Nat.zero_le _) (List.forall_mem_nil _)
  have inText := scan_foundIn scanned
  rw [List.reverse_cons] at inText ⊢
  have body (close : Token) (ends : close.kind = .eof) :
      (found.reverse ++ [close]).filter (fun token => token.kind ≠ .eof) = found.reverse := by
    rw [List.filter_append, List.filter_eq_self.mpr (by simpa using real),
      List.filter_cons_of_neg (by simpa using ends), List.filter_nil, List.append_nil]
  have alone : ∀ token ∈ found.reverse, token.StandsAlone := fun token inside =>
    (inText token (List.mem_append_left _ inside) (real token (List.mem_reverse.mp inside))).standsAlone
  let cs := spaced found.reverse
  obtain ⟨again, done, same⟩ := scanFrom_spaced ⟨other, String.ofList cs⟩ .origin [] alone
  refine ⟨again, ?_, by rw [same, List.map_append]; rfl⟩
  have text : (" ".intercalate (found.reverse.map lexeme)).toList = cs := by
    rw [String.toList_intercalate, List.map_map]
    rfl
  rw [body _ rfl, scan, text, expandTabs_of_not_mem (tab_not_mem_spaced alone)]
  exact done

/-- Signs and digits that would be read otherwise if they were joined, and a string that holds a
blank, a comment sign and its own quote. -/
theorem scan_respaced_signs :
    let text := "ab1.5.5->-\t'# \\''!=.=="
    let spelled := ["ab", "1.5", ".", "5", "->", "-", "'# \\''", "!=", ".", "=="]
    ∃ tokens, scan "m" text = .ok tokens ∧
      (tokens.filter fun token => token.kind ≠ .eof).map lexeme = spelled ∧
      ∃ again, scan "m" (" ".intercalate spelled) = .ok again ∧
        again.map content = tokens.map content := by
  intro text spelled
  cases scanned : scan "m" text with
  | ok tokens =>
    have lexemes : (scan "m" text).toOption.map (fun tokens =>
        (tokens.filter fun token => token.kind ≠ .eof).map lexeme) = some spelled := by
      decide +kernel
    rw [scanned] at lexemes
    have lexemes := Option.some.inj lexemes
    exact ⟨tokens, rfl, lexemes, lexemes ▸ scan_respaced scanned "m"⟩
  | error d =>
    have good : (scan "m" text).toOption.isSome = true := by decide +kernel
    rw [scanned] at good
    cases good

end Token

end BasicScript
