import BasicScript.Proofs.Node.Foresight

/-! A syntax fault is reported at the earliest token that there is no way around: what stands in
front of it can be completed to a program, and nothing that goes on with it can. -/

set_option autoImplicit false

namespace BasicScript

namespace Token

/-- A list of scanned tokens is closed by an end of file. -/
theorem scanFrom_eof {file : SourceFile} {cs : List Char} {skip : Nat} {p : Position}
    {scanned tokens : List Token} (done : scanFrom file cs skip p scanned = .ok tokens) :
    ∃ token ∈ tokens, token.kind = .eof := by
  induction cs generalizing skip p scanned with
  | nil =>
    cases done
    exact ⟨_, List.mem_reverse.mpr List.mem_cons_self, rfl⟩
  | cons c rest ih =>
    cases skip with
    | succ skip => exact ih done
    | zero =>
      unfold scanFrom at done
      split at done
      · exact ih done
      · exact ih done
      · cases done

theorem scan_eof {name text : String} {tokens : List Token} (done : scan name text = .ok tokens) :
    ∃ token ∈ tokens, token.kind = .eof :=
  scanFrom_eof done

end Token

namespace Cursor

variable {w : List Token} (free : ∀ token ∈ w, token.kind ≠ .eof)

include free in
theorem ofTokens_append (other : List Token) :
    ofTokens (w ++ other) = ⟨0, none, w ++ (ofTokens other).rest⟩ := by
  rw [ofTokens, List.takeWhile_append_of_pos (by simpa using free)]
  rfl

theorem ofTokens_cons {token : Token} (real : token.kind ≠ .eof) (others : List Token) :
    ofTokens (token :: others) = ⟨0, none, token :: (ofTokens others).rest⟩ := by
  simp [ofTokens, real]

theorem ofTokens_eof {token : Token} (close : token.kind = .eof) (others : List Token) :
    ofTokens (token :: others) = ⟨0, none, []⟩ := by
  simp [ofTokens, close]

end Cursor

/-- The first end of file in a list. -/
theorem exists_split_eof {tokens : List Token} (closed : ∃ token ∈ tokens, token.kind = .eof) :
    ∃ body close others, tokens = body ++ close :: others ∧ close.kind = .eof ∧
      ∀ token ∈ body, token.kind ≠ .eof := by
  induction tokens with
  | nil => simp at closed
  | cons token rest ih =>
    by_cases here : token.kind = .eof
    · exact ⟨[], token, rest, rfl, here, List.forall_mem_nil _⟩
    · obtain ⟨body, close, others, rfl, closes, real⟩ := ih (by simpa [here] using closed)
      exact ⟨token :: body, close, others, rfl, closes, List.forall_mem_cons.mpr ⟨here, real⟩⟩

namespace Node

/-- The index of the token that the parser stopped at. A repeated parameter has been taken before it
is refused. -/
def stopIndex? (tokens : List Token) : Option Nat :=
  match parsing tokens with
  | .ok _ _ => none
  | .error d c => some (c.taken - d.overrun)

theorem failed_of_stopIndex? {tokens : List Token} {i : Nat} (stopped : stopIndex? tokens = some i) :
    ∃ d, ofTokens tokens = .error d := by
  rw [ofTokens_eq_answer]
  unfold stopIndex? at stopped
  cases outcome : parsing tokens with
  | ok _ _ => simp [outcome] at stopped
  | error d _ => exact ⟨d, rfl⟩

/-- What stands in front of the token that the parser stopped at, for a list that is closed by an
end of file. -/
theorem ofTokens_stuck {body others : List Token} {close : Token} {d : Diagnostic}
    (real : ∀ token ∈ body, token.kind ≠ .eof) (closes : close.kind = .eof)
    (failed : ofTokens (body ++ close :: others) = .error d) :
    ∃ w tail, body = w ++ tail ∧ stopIndex? (body ++ close :: others) = some w.length ∧
      (∀ token, tail.head? = some token → d.span = token.span) ∧
      (∀ other : List Token, other.head? = (tail ++ [close]).head? →
        ofTokens (w ++ other) = .error d) ∧
      ∃ more nodes, ofTokens (w ++ more) = .ok nodes := by
  have start : Cursor.ofTokens (body ++ close :: others) = ⟨0, none, body⟩ := by
    rw [Cursor.ofTokens_append real, Cursor.ofTokens_eof closes, List.append_nil]
  rw [ofTokens_eq, start] at failed
  cases Grammar.program_predictive.decides ⟨0, none, body⟩ (Nat.lt_succ_self _) with
  | value w tail nodes splits reads silent =>
    rw [reads.apply splits (.inl rfl)] at failed
    cases failed
  | stop w tail e splits stuck completes =>
    have splits : body = w ++ tail := splits
    have stops := stuck.apply splits
    rw [stops] at failed
    cases failed
    have free (token : Token) (inside : token ∈ w) : token.kind ≠ .eof :=
      real token (splits ▸ List.mem_append_left tail inside)
    refine ⟨w, tail, splits, ?_, stuck.here, fun other same => ?_, ?_⟩
    · have room := stuck.room
      rw [stopIndex?, parsing_eq, start, stops]
      simp only [Cursor.past, List.length_append, List.length_take, Option.some.injEq]
      omega
    -- tokens that begin alike show the parser the same token next
    · have same : (Cursor.ofTokens other).rest.head? = tail.head? := by
        cases tail with
        | nil =>
          obtain ⟨others, rfl⟩ := List.head?_eq_some_iff.mp same
          rw [Cursor.ofTokens_eof closes]
        | cons token rest =>
          obtain ⟨others, rfl⟩ := List.head?_eq_some_iff.mp same
          have real := real token (splits ▸ List.mem_append_right w List.mem_cons_self)
          rw [Cursor.ofTokens_cons real]
          rfl
      have fails := stuck.fails _ same
      rw [ofTokens_eq, Cursor.ofTokens_append free]
      exact congrArg Parser.answer fails
    · obtain ⟨more, nodes, new, reads, _⟩ := completes
      refine ⟨more, nodes, ?_⟩
      have all : ∀ token ∈ w ++ more, token.kind ≠ .eof := fun token inside =>
        (List.mem_append.mp inside).elim (free token) (new token)
      have start := Cursor.ofTokens_append all []
      rw [List.append_nil] at start
      rw [ofTokens_eq, start]
      exact congrArg Parser.answer (reads ⟨0, none, []⟩ [] (by decide))

/-- The parser stops at the earliest token that no program has where it stands: every list that
starts like this one up to that token fails in the same way, and without it some list goes on to a
program. The fault is reported there. -/
theorem ofTokens_stops_earliest {name text : String} {tokens : List Token} {d : Diagnostic}
    (scanned : Token.scan name text = .ok tokens) (failed : ofTokens tokens = .error d) :
    ∃ i, stopIndex? tokens = some i ∧ i < tokens.length ∧
      (∀ token, tokens[i]? = some token → token.kind ≠ .eof → d.span = token.span) ∧
      (∀ list, tokens.take (i + 1) <+: list → ofTokens list = .error d) ∧
      ∃ more nodes, ofTokens (tokens.take i ++ more) = .ok nodes := by
  obtain ⟨body, close, others, rfl, closes, real⟩ := exists_split_eof (Token.scan_eof scanned)
  obtain ⟨w, tail, rfl, stops, here, fails, completes⟩ := ofTokens_stuck real closes failed
  have whole : w ++ tail ++ close :: others = w ++ (tail ++ close :: others) := List.append_assoc ..
  rw [whole] at stops ⊢
  refine ⟨w.length, stops, ?_, fun token found real => ?_, fun list starts => ?_, ?_⟩
  · simp only [List.length_append, List.length_cons]
    omega
  · rw [List.getElem?_append_right (Nat.le_refl _), Nat.sub_self] at found
    cases tail with
    | nil =>
      cases found
      exact absurd closes real
    | cons first rest => exact here token found
  · obtain ⟨more, rfl⟩ := starts
    rw [List.take_length_add_append, List.append_assoc]
    refine fails _ ?_
    cases tail <;> rfl
  · rw [List.take_left]
    exact completes

/-- A repeated parameter is the earliest fault of its function, whatever its body. -/
theorem ofTokens_stops_at_repeated : ∃ tokens d i,
    Token.scan "m" "FUNCTION(a, a) END" = .ok tokens ∧ ofTokens tokens = .error d ∧ i = 4 ∧
      stopIndex? tokens = some i ∧ i < tokens.length ∧
      (∀ token, tokens[i]? = some token → token.kind ≠ .eof → d.span = token.span) ∧
      (∀ list, tokens.take (i + 1) <+: list → ofTokens list = .error d) ∧
      ∃ more nodes, ofTokens (tokens.take i ++ more) = .ok nodes := by
  have stopped : (Token.scan "m" "FUNCTION(a, a) END").toOption.bind stopIndex? = some 4 := by
    decide +kernel
  obtain ⟨tokens, found, stopped⟩ := Option.bind_eq_some_iff.mp stopped
  have scanned : Token.scan "m" "FUNCTION(a, a) END" = .ok tokens := by
    cases outcome : Token.scan "m" "FUNCTION(a, a) END" with
    | ok _ => rw [outcome] at found; exact congrArg Except.ok (Option.some.inj found)
    | error _ => rw [outcome] at found; cases found
  obtain ⟨d, failed⟩ := failed_of_stopIndex? stopped
  obtain ⟨i, stops, rest⟩ := ofTokens_stops_earliest scanned failed
  exact ⟨tokens, d, i, scanned, failed, Option.some.inj (stops.symm.trans stopped), stops, rest⟩

end Node

end BasicScript
