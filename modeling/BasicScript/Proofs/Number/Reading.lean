import BasicScript.BuiltIn.Call
import BasicScript.Proofs.Outcome
import BasicScript.Proofs.Token.Lexeme

/-! Two readers of numbers. A conversion takes a whole text, which is digits with or without a
point; the scanner takes as much of a text as makes a number, and leaves a point alone that has no
digit behind it. What the scanner takes as a number, the conversion reads as the same one. -/

set_option autoImplicit false

namespace BasicScript

namespace Number

/-- Digits, and possibly a point with more digits behind it, or none. -/
def IsDecimal (cs : List Char) : Prop :=
  ∃ whole, whole ≠ [] ∧ (∀ c ∈ whole, c.isDigit = true) ∧
    (cs = whole ∨ ∃ fraction, (∀ c ∈ fraction, c.isDigit = true) ∧ cs = whole ++ '.' :: fraction)

def literal : Number → Literal
  | .int n => .integer n
  | .float f => .float f

def ofWhole (whole : List Char) : Number :=
  match ofInt? (ofDigits whole) with
  | some n => .int n
  | none => .float (ofFraction whole [])

theorem ofDigits_eq (digits : List Char) : ofDigits digits = Nat.ofDigitChars 10 digits 0 :=
  Nat.ofDigitChars_eq_foldl.symm

variable {whole fraction : List Char} {text : String} {n : Number}

theorem ofText?_whole (nonempty : whole ≠ []) (digits : ∀ c ∈ whole, c.isDigit = true)
    (spelled : text.toList = whole) : ofText? text = some (ofWhole whole) := by
  have front : whole.takeWhile Char.isDigit = whole := List.takeWhile_eq_self_iff.mpr digits
  simp only [ofText?, ofWhole, spelled, front, List.drop_length,
    List.isEmpty_eq_false_iff.mpr nonempty, Bool.false_eq_true, ↓reduceIte]
  cases ofInt? (ofDigits whole) <;> rfl

theorem ofText?_fraction (nonempty : whole ≠ []) (digits : ∀ c ∈ whole, c.isDigit = true)
    (behind : ∀ c ∈ fraction, c.isDigit = true) (spelled : text.toList = whole ++ '.' :: fraction) :
    ofText? text = some (.float (ofFraction whole fraction)) := by
  have front : (whole ++ '.' :: fraction).takeWhile Char.isDigit = whole := by
    rw [List.takeWhile_append_of_pos digits]
    exact List.append_nil whole
  simp only [ofText?, spelled, front, List.drop_left, List.isEmpty_eq_false_iff.mpr nonempty,
    Bool.false_eq_true, ↓reduceIte, List.all_eq_true.mpr behind]

theorem isDecimal_of_ofText? (found : ofText? text = some n) : IsDecimal text.toList := by
  have parts := List.takeWhile_append_dropWhile (p := Char.isDigit) (l := text.toList)
  have rest : (text.toList.takeWhile Char.isDigit ++ text.toList.dropWhile Char.isDigit).drop
      (text.toList.takeWhile Char.isDigit).length = text.toList.dropWhile Char.isDigit := List.drop_left
  rw [parts] at rest
  have digits : ∀ c ∈ text.toList.takeWhile Char.isDigit, c.isDigit = true :=
    fun _ => List.mem_takeWhile_imp
  simp only [ofText?, rest] at found
  split at found
  case isTrue => cases found
  case isFalse nonempty =>
    refine ⟨_, by simpa using nonempty, digits, ?_⟩
    split at found
    case h_1 ended =>
      rw [ended, List.append_nil] at parts
      exact .inl parts.symm
    case h_2 fraction point =>
      split at found
      case isTrue behind => exact .inr ⟨fraction, List.all_eq_true.mp behind, by rw [← point, parts]⟩
      case isFalse => cases found
    case h_3 => cases found

/-- The conversion takes decimals and nothing else. -/
theorem isSome_ofText?_iff : (ofText? text).isSome ↔ IsDecimal text.toList := by
  constructor
  · intro found
    obtain ⟨n, found⟩ := Option.isSome_iff_exists.mp found
    exact isDecimal_of_ofText? found
  · rintro ⟨whole, nonempty, digits, spelled | ⟨fraction, behind, spelled⟩⟩
    · rw [ofText?_whole nonempty digits spelled]; rfl
    · rw [ofText?_fraction nonempty digits behind spelled]; rfl

/-- The text of an integer that is not negative is its digits. -/
theorem ofText?_text {n : Int64} (natural : 0 ≤ n) : ofText? (Number.int n).text = some (.int n) := by
  obtain ⟨m, same⟩ : ∃ m : Nat, n.toInt = m := Int.eq_ofNat_of_zero_le (Int64.le_iff_toInt_le.mp natural)
  have spelled : (Number.int n).text.toList = Nat.toDigits 10 m := by
    rw [text, same]
    exact Nat.toList_repr
  have fits : ofInt? m = some n := ofInt?_eq_some.mpr same
  rw [ofText?_whole Nat.toDigits_ne_nil (fun c => Nat.isDigit_of_mem_toDigits (by decide) (by decide))
    spelled, ofWhole, ofDigits_eq, Nat.ofDigitChars_ten_toDigits, fits]

end Number

namespace Step

variable {c : Char} {rest : List Char} {kind : TokenKind} {literal : Option Literal} {more : Nat}

def isNumber : Step → Bool
  | .token kind _ _ => kind == .integer || kind == .float
  | .blank _ | .fault _ _ _ => false

theorem isNumber_quoted (quote : Char) (rest : List Char) (taken : Nat) (text : List Char) :
    (quoted quote rest taken text).isNumber = false := by
  fun_induction quoted quote rest taken text with
  | case3 _ _ _ _ _ _ ih | case7 _ _ _ _ _ _ _ _ ih => exact ih
  | _ => rfl

theorem isNumber_word (c : Char) (rest : List Char) : (word c rest).isNumber = false := by
  unfold word
  dsimp only
  split <;> rfl

theorem isNumber_sign (rest : List Char) (second : Char) {long short : TokenKind}
    (bare : long.isLiteral = false ∧ short.isLiteral = false) :
    (sign rest second long short).isNumber = false := by
  have other {kind : TokenKind} (bare : kind.isLiteral = false) :
      (kind == .integer || kind == .float) = false := by
    cases kind <;> first | rfl | cases bare
  unfold sign
  split
  · exact other bare.1
  · exact other bare.2

/-- Nothing but a digit begins a number. -/
theorem isNumber_recognize (rest : List Char) (other : c.isDigit = false) :
    (recognize c rest).isNumber = false := by
  unfold recognize
  -- most characters stand for themselves, or begin a sign or a string
  split <;> first
    | rfl
    | exact isNumber_sign _ _ ⟨rfl, rfl⟩
    | exact isNumber_quoted _ _ _ _
    | skip
  case h_18 =>
    split
    · rfl
    · exact isNumber_sign _ _ ⟨rfl, rfl⟩
  case h_24 => split <;> rfl
  case h_27 =>
    rw [if_neg (by simp [other])]
    split
    · exact isNumber_word _ _
    · rfl

theorem recognize_digit (rest : List Char) (digit : c.isDigit = true) :
    recognize c rest = number c rest := by
  unfold recognize
  split <;> first
    | exact absurd digit (by decide)
    | exact if_pos digit

/-- A number that is all of a text is what the conversion reads. -/
theorem ofText?_of_number (digit : c.isDigit = true) {text : String} (spelled : text.toList = c :: rest)
    (found : number c rest = .token kind literal rest.length) :
    ∃ n, literal = some (Number.literal n) ∧ Number.ofText? text = some n := by
  have parts := List.takeWhile_append_dropWhile (p := Char.isDigit) (l := rest)
  have digits : ∀ d ∈ c :: rest.takeWhile Char.isDigit, d.isDigit = true :=
    List.forall_mem_cons.mpr ⟨digit, fun _ => List.mem_takeWhile_imp⟩
  -- all of the text is digits
  have short (found : integer (c :: rest.takeWhile Char.isDigit) = .token kind literal rest.length) :
      ∃ n, literal = some (Number.literal n) ∧ Number.ofText? text = some n := by
    have all : rest.takeWhile Char.isDigit = rest :=
      (List.takeWhile_prefix _).eq_of_length (more_of_integer found).symm
    rw [all] at found digits
    refine ⟨Number.ofWhole (c :: rest), ?_, Number.ofText?_whole (List.cons_ne_nil _ _) digits spelled⟩
    unfold integer at found
    split at found
    case h_1 n fits =>
      cases found
      rw [Number.ofWhole, fits]
      rfl
    case h_2 => cases found
  rw [number_eq] at found
  unfold numberFrom at found
  split at found
  case h_2 => exact short found
  case h_1 behind left =>
    dsimp only at found
    split at found
    case isTrue => exact short found
    case isFalse =>
      have whole : rest = rest.takeWhile Char.isDigit ++ '.' :: behind := by rw [← left, parts]
      have length := congrArg List.length whole
      simp only [token.injEq, List.length_cons, List.length_append] at found length
      obtain ⟨rfl, rfl, length'⟩ := found
      have all : behind.takeWhile Char.isDigit = behind :=
        (List.takeWhile_prefix _).eq_of_length (by omega)
      rw [all]
      refine ⟨_, rfl, Number.ofText?_fraction (List.cons_ne_nil _ _) digits ?_ ?_⟩
      · rw [← all]
        exact fun _ => List.mem_takeWhile_imp
      · rw [spelled, List.cons_append, ← whole]

end Step

namespace Token

/-- A number token, wherever it stands, is spelled as the conversion reads it. -/
theorem FoundIn.ofText?_lexeme {cs : List Char} {token : Token} (found : token.FoundIn (expandTabs cs))
    (numeric : token.kind = .integer ∨ token.kind = .float) :
    ∃ n, token.literal = some (Number.literal n) ∧ Number.ofText? token.lexeme = some n := by
  obtain ⟨c, more, spelled, _, recognized⟩ := found.standsAlone
  have step := recognized [] .nil
  rw [List.append_nil] at step
  have digit : c.isDigit = true := by
    by_contra other
    have := Step.isNumber_recognize more (Bool.eq_false_iff.mpr other)
    rw [step] at this
    rcases numeric with kind | kind <;> simp [Step.isNumber, kind] at this
  rw [Step.recognize_digit more digit] at step
  exact Step.ofText?_of_number digit spelled step

end Token

namespace Value

/-- The conversion of a text to a number. It succeeds for decimals alone; digits without a point
give their value as an integer if that fits and a double otherwise; every number token of every text
is spelled as the conversion reads it; and of an integer that is not negative, the text gives it
back. -/
theorem toNumber_reads :
    (∀ text : String,
      ((∃ n, (Value.string text).toNumber = .ok n) ↔ Number.IsDecimal text.toList) ∧
      (text.toList ≠ [] → (∀ c ∈ text.toList, c.isDigit = true) →
        (∀ n : Int64, n.toInt = Nat.ofDigitChars 10 text.toList 0 →
          (Value.string text).toNumber = .ok (.int n)) ∧
        ((∀ n : Int64, n.toInt ≠ Nat.ofDigitChars 10 text.toList 0) →
          ∃ f, (Value.string text).toNumber = .ok (.float f)))) ∧
    (∀ name text tokens, Token.scan name text = .ok tokens → ∀ token ∈ tokens,
      token.kind = .integer ∨ token.kind = .float →
        ∃ n, token.literal = some (Number.literal n) ∧
          (Value.string token.lexeme).toNumber = .ok n) ∧
    ∀ (n : Int64) (trace : List String) (scope : Handle) (world : World), 0 ≤ n →
      (do let text ← BuiltIn.call ⟨"string", some (.exactly 1), .text⟩ [.ofInt64 n] trace scope
          BuiltIn.call ⟨"number", some (.exactly 1), .number⟩ [text] trace scope : Effect Value) world =
        .ok (.ofInt64 n) world := by
  have read {text : String} {n : Number} (found : Number.ofText? text = some n) :
      (Value.string text).toNumber = .ok n := by
    simp only [toNumber, found]
  refine ⟨fun text => ⟨?_, fun nonempty digits => ?_⟩, ?_, ?_⟩
  · rw [← Number.isSome_ofText?_iff]
    cases found : Number.ofText? text with
    | some n => exact iff_of_true ⟨n, read found⟩ rfl
    | none => simp [toNumber, found]
  · have whole := Number.ofText?_whole nonempty digits rfl
    rw [Number.ofWhole, Number.ofDigits_eq] at whole
    refine ⟨fun n fits => ?_, fun large => ?_⟩
    · rw [Number.ofInt?_eq_some.mpr fits] at whole
      exact read whole
    · rw [Option.eq_none_iff_forall_ne_some.mpr fun n => mt Number.ofInt?_eq_some.mp (large n)] at whole
      exact ⟨_, read whole⟩
  · intro name text tokens scanned token inside numeric
    -- the literal has been read from the lexeme, wherever the token stands
    have real : token.kind ≠ .eof := by rcases numeric with kind | kind <;> simp [kind]
    obtain ⟨n, literal, found⟩ := (Token.scan_foundIn scanned token inside real).ofText?_lexeme numeric
    exact ⟨n, literal, read found⟩
  · rintro n trace scope world natural
    have found := read (Number.ofText?_text natural)
    have text : world.store.text (.number (.int n)) = (Number.int n).text := by
      unfold Store.text
      cases world.store.depth <;> rfl
    have spelled : BuiltIn.call ⟨"string", some (.exactly 1), .text⟩ [.ofInt64 n] trace scope world =
        .ok (.string (Number.int n).text) world := by
      rw [← text]
      rfl
    rw [bind_of_ok spelled]
    have : BuiltIn.call ⟨"number", some (.exactly 1), .number⟩ [.string (Number.int n).text] trace scope
      world = (Value.number <$> Effect.lift (Value.string (Number.int n).text).toNumber) world := rfl
    rw [this, found]
    rfl

/-- Zeros in front do not count, in a text and in a token. -/
theorem toNumber_reads_zeros :
    (Value.string "007").toNumber = .ok (.int 7) ∧
    (∃ tokens, Token.scan "zeros" "007" = .ok tokens ∧ ∀ token ∈ tokens, token.kind = .integer ∨
      token.kind = .float → ∃ n, token.literal = some (Number.literal n) ∧
        (Value.string token.lexeme).toNumber = .ok n) ∧
    (0 : Int64) ≤ 7 ∧ ∀ (trace : List String) (scope : Handle) (world : World),
      (do let text ← BuiltIn.call ⟨"string", some (.exactly 1), .text⟩ [.ofInt64 7] trace scope
          BuiltIn.call ⟨"number", some (.exactly 1), .number⟩ [text] trace scope : Effect Value) world =
        .ok (.ofInt64 7) world := by
  have ⟨texts, tokens, integers⟩ := toNumber_reads
  have digits : ∀ c ∈ "007".toList, c.isDigit = true := List.all_eq_true.mp rfl
  refine ⟨((texts "007").2 (by decide) digits).1 7 (by decide), ?_, by decide,
    fun trace scope world => integers 7 trace scope world (by decide)⟩
  obtain ⟨found, scanned⟩ : ∃ found, Token.scan "zeros" "007" = .ok found := ⟨_, rfl⟩
  exact ⟨found, scanned, tokens _ _ _ scanned⟩

end Value

end BasicScript
