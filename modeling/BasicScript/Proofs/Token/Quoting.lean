import BasicScript.Proofs.Token.Lexeme

/-! Quoting. Each text can be written between quotes, and is read back as it was. -/

set_option autoImplicit false

namespace BasicScript

def escape (quote : Char) : Char → List Char
  | '\\' => ['\\', '\\']
  | '\n' => ['\\', 'n']
  | '\r' => ['\\', 'r']
  | '\t' => ['\\', 't']
  | '\x08' => ['\\', 'b']
  | c => if c = quote then ['\\', c] else [c]

def quotation (quote : Char) (text : String) : String :=
  String.ofList (quote :: text.toList.flatMap (escape quote) ++ [quote])

/-- The two signs that begin a string and end it. -/
def IsQuote (quote : Char) : Prop := quote = '\'' ∨ quote = '"'

namespace IsQuote

variable {quote : Char}

theorem ne_backslash (isQuote : IsQuote quote) : quote ≠ '\\' := by
  rcases isQuote with rfl | rfl <;> decide

theorem unescape (isQuote : IsQuote quote) : Step.unescape quote quote = some quote := by
  rcases isQuote with rfl | rfl <;> rfl

end IsQuote

namespace Step

variable {quote : Char}

/-- A character is written as itself, or by an escape that stands for it. -/
theorem escape_cases (isQuote : IsQuote quote) (c : Char) :
    (∃ e, escape quote c = ['\\', e] ∧ unescape quote e = some c ∧ e ≠ '\t') ∨
      escape quote c = [c] ∧ c ≠ '\\' ∧ c ≠ quote ∧ c ≠ '\n' ∧ c ≠ '\t' := by
  unfold escape
  split
  case h_6 backslash newline _ tab _ =>
    split
    case isTrue same => exact .inl ⟨c, rfl, same ▸ isQuote.unescape, tab⟩
    case isFalse other => exact .inr ⟨rfl, backslash, other, newline, tab⟩
  all_goals exact .inl ⟨_, rfl, rfl, by decide⟩

/-- What is written between quotes is read back. -/
theorem quoted_escape (isQuote : IsQuote quote) (cs rest : List Char) (taken : Nat)
    (text : List Char) :
    quoted quote (cs.flatMap (escape quote) ++ quote :: rest) taken text =
      .token .string (some (.text (String.ofList (text.reverse ++ cs))))
        (taken + (cs.flatMap (escape quote)).length + 1) := by
  induction cs generalizing taken text with
  | nil => rw [List.flatMap_nil, List.nil_append, quoted_cons isQuote.ne_backslash, if_pos rfl]; simp
  | cons c cs ih =>
    rcases escape_cases isQuote c with ⟨e, escaped, known, -⟩ | ⟨plain, backslash, other, newline, -⟩
    · rw [List.flatMap_cons, escaped, List.append_assoc, List.cons_append, List.cons_append, quoted,
        known, List.nil_append]
      dsimp only
      rw [ih]
      simp [Nat.add_assoc, Nat.add_comm 2]
    · rw [List.flatMap_cons, plain, List.append_assoc, List.cons_append, List.nil_append,
        quoted_cons backslash, if_neg other, if_neg newline, ih]
      simp [Nat.add_assoc, Nat.add_comm 1]

end Step

namespace Token

variable {quote : Char}

theorem tab_not_mem_quotation (isQuote : IsQuote quote) (cs : List Char) :
    '\t' ∉ quote :: cs.flatMap (escape quote) ++ [quote] := by
  have tabless : '\t' ≠ quote := by rcases isQuote with rfl | rfl <;> decide
  have inner : '\t' ∉ cs.flatMap (escape quote) := by
    intro inside
    obtain ⟨c, _, inside⟩ := List.mem_flatMap.mp inside
    rcases Step.escape_cases isQuote c with ⟨e, escaped, _, tab⟩ | ⟨plain, _, _, _, tab⟩
    · rw [escaped] at inside
      rcases List.mem_cons.mp inside with backslash | inside
      · exact absurd backslash (by decide)
      · exact tab (List.mem_singleton.mp inside).symm
    · rw [plain] at inside
      exact tab (List.mem_singleton.mp inside).symm
  simp only [List.cons_append, List.mem_cons, List.mem_append, List.not_mem_nil, or_false, not_or]
  exact ⟨tabless, inner, tabless⟩

/-- A text between quotes is one token, and the text is its literal. -/
theorem scan_of_quotation (isQuote : IsQuote quote) (name text : String) :
    ∃ tokens, scan name (quotation quote text) = .ok tokens ∧
      tokens.map content =
        [(.string, quotation quote text, some (.text text)), (.eof, "", none)] := by
  let inner := text.toList.flatMap (escape quote) ++ [quote]
  let file : SourceFile := ⟨name, String.ofList (quote :: inner)⟩
  have written : (quotation quote text).toList = quote :: inner := String.toList_ofList
  have closed := Step.quoted_escape isQuote text.toList [] 0 []
  have found : Step.recognize quote (inner ++ []) =
      .token .string (some (.text text)) inner.length := by
    have begins : Step.recognize quote (inner ++ []) = Step.quoted quote inner 0 [] := by
      rw [List.append_nil]
      rcases isQuote with rfl | rfl <;> rfl
    rw [begins, closed]
    simp [inner]
  let stop := Position.origin.after (quote :: inner)
  have done : scan name (quotation quote text) =
      .ok [⟨.string, quotation quote text, some (.text text), ⟨file, .origin, stop⟩⟩,
        ⟨.eof, "", none, .single file stop⟩] := by
    have scanned : scanFrom file (quote :: inner ++ []) 0 .origin [] = _ := scanFrom_token found
    rw [List.append_nil] at scanned
    have tabless : expandTabs (quote :: inner) = quote :: inner :=
      expandTabs_of_not_mem (tab_not_mem_quotation isQuote _)
    rw [scan, written, tabless]
    exact scanned
  exact ⟨_, done, rfl⟩

/-- All texts can be written between quotes, with either sign: the quotation is scanned as one
string, whose literal is the text. So the literal of each string of a text can be written again. -/
theorem scan_quotation {quote : Char} (isQuote : IsQuote quote) (name : String) :
    (∀ text, ∃ tokens, scan name (quotation quote text) = .ok tokens ∧
      tokens.map content =
        [(.string, quotation quote text, some (.text text)), (.eof, "", none)]) ∧
    ∀ (source text : String) (tokens : List Token), scan source text = .ok tokens →
      ∀ token ∈ tokens, token.kind = .string → ∃ value, token.literal = some (.text value) ∧
        ∃ again, scan name (quotation quote value) = .ok again ∧
          again.map content =
            [(.string, quotation quote value, some (.text value)), (.eof, "", none)] := by
  refine ⟨scan_of_quotation isQuote name, fun source text tokens scanned token inside string => ?_⟩
  have typed := (scan_foundIn scanned token inside (by rw [string]; nofun)).typed
  rw [string] at typed
  obtain ⟨literal, found, kind⟩ := Option.map_eq_some_iff.mp typed
  cases literal with
  | text value => exact ⟨value, found, scan_of_quotation isQuote name value⟩
  | integer _ | float _ => cases kind

/-- Both quotes, a backslash, a line break, a tab, a backspace and the null character: only the
quote that is written around the text needs an escape. -/
theorem scan_quotation_escapes :
    let text := "it's \"\\\n\t\x08\x00"
    let written := "'it\\'s \"\\\\\\n\\t\\b\x00'"
    IsQuote '\'' ∧ quotation '\'' text = written ∧
      ∃ tokens, scan "m" written = .ok tokens ∧
        tokens.map content = [(.string, written, some (.text text)), (.eof, "", none)] := by
  intro text written
  have same : quotation '\'' text = written := by decide +kernel
  exact ⟨.inl rfl, same, same ▸ (scan_quotation (.inl rfl) "m").1 text⟩

end Token

end BasicScript
