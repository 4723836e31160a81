import LoopCapture.Program.Build
import LoopCapture.Proofs.Grammar.Acceptance
import LoopCapture.Proofs.Grammar.StmtRules
import Mathlib.Data.List.Basic

/-!
# Syntax errors

Tokens that are no program are rejected at the first token that no program has after the tokens
before it, or at their end if they begin some program.
-/

set_option autoImplicit false

namespace LoopCapture

namespace Concrete

variable {tokens : List Token}

/-- A sequence of terminals begins some program. -/
def Viable (word : List Terminal) : Prop :=
  ∃ more, Derivable (word ++ more)

theorem Derivable.viable {word : List Terminal} (derivable : Derivable word) : Viable word :=
  ⟨[], by rwa [List.append_nil]⟩

theorem run_of_parse_error {rejection : Rejection} (failed : parse tokens = .error rejection) :
    (parseGoal (depthFor tokens.length) (.statements .program)).run tokens = .error rejection := by
  unfold parse at failed
  cases run : (parseGoal (depthFor tokens.length) (.statements .program)).run tokens with
  | error found =>
      rw [run] at failed
      exact congrArg Except.error (Except.error.inj failed)
  | ok result =>
      rw [run] at failed
      cases failed

theorem parse_predicts (tokens : List Token) :
    Parser.Result.Predicts (depthFor tokens.length) 5
      (parseGoal (depthFor tokens.length) (.statements .program)) (Derived .statements) tokens
      ((parseGoal (depthFor tokens.length) (.statements .program)).run tokens) :=
  ((parseGoal_predicts (Nat.le_refl _)).statements .program).predicts tokens

theorem parse_ne_depth (tokens : List Token) : parse tokens ≠ .error .depth :=
  fun failed => run_ne_depth (Nat.le_refl _) (run_of_parse_error failed)

/-- An end that comes too early is the end of the beginning of a program. -/
theorem viable_of_parse_atEnd (failed : parse tokens = .error .atEnd) :
    Viable (terminalsOf tokens) := by
  have here := parse_predicts tokens
  rw [run_of_parse_error failed] at here
  obtain ⟨body, more, derived⟩ := here
  exact ⟨more, body, derived⟩

/-- A larger bound on the depth does not change which token is rejected. -/
theorem run_token_deeper {depth deeper : Nat} (le : depth ≤ deeper) {token : Token}
    (failed : (parseGoal depth (.statements .program)).run tokens = .error (.token token)) :
    (parseGoal deeper (.statements .program)).run tokens = .error (.token token) := by
  have here := ((parseGoal_predicts le).statements .program).predicts tokens
  rw [failed] at here
  obtain ⟨taken, rest, rfl, -, same⟩ := here
  exact same rest

/-- A rejected token is the first one that no program has at its place. -/
theorem first_of_parse_token {token : Token} (failed : parse tokens = .error (.token token)) :
    ∃ taken rest, tokens = taken ++ token :: rest ∧ Viable (terminalsOf taken) ∧
      ¬ Viable (terminalsOf taken ++ [token.terminal]) := by
  have here := parse_predicts tokens
  rw [run_of_parse_error failed] at here
  generalize depthFor tokens.length = depth at here
  obtain ⟨taken, rest, split, ⟨body, more, derived⟩, same⟩ := here
  refine ⟨taken, rest, split, ⟨more, body, derived⟩, ?_⟩
  -- Tokens that made a program of it would be rejected all the same.
  rintro ⟨further, derivable⟩
  let later := further.map fun terminal => (⟨terminal, ⟨0, 0, 0, 0⟩⟩ : Token)
  have read : terminalsOf (taken ++ token :: later) =
      terminalsOf taken ++ [token.terminal] ++ further := by
    simp [later, Function.comp_def]
  rw [← read] at derivable
  obtain ⟨found, parsed⟩ := exists_parse_iff_derivable.mpr derivable
  obtain ⟨spelled, formed⟩ := parse_eq_ok_iff.mp parsed
  have accepted := parseGoal_yields (Nat.le_max_left _ depth) spelled formed
  rw [Parser.Yields, run_token_deeper (Nat.le_max_right _ depth) (same later)] at accepted
  cases accepted

/-! ## What rejection says -/

/-- Tokens are rejected at a token if and only if they do not begin a program. -/
theorem parse_token_iff :
    (∃ token, parse tokens = .error (.token token)) ↔ ¬ Viable (terminalsOf tokens) := by
  constructor
  · rintro ⟨token, failed⟩ ⟨more, derivable⟩
    obtain ⟨taken, rest, rfl, -, dead⟩ := first_of_parse_token failed
    refine dead ⟨terminalsOf rest ++ more, ?_⟩
    simpa using derivable
  · intro dead
    match parsed : parse tokens with
    | .ok body => exact absurd (exists_parse_iff_derivable.mp ⟨body, parsed⟩).viable dead
    | .error (.token token) => exact ⟨token, rfl⟩
    | .error .atEnd => exact absurd (viable_of_parse_atEnd parsed) dead
    | .error .depth => exact absurd parsed (parse_ne_depth tokens)

end Concrete

namespace Program

open Concrete (terminalsOf Derivable Viable)

theorem ofText_of_concrete {source : List Char} {error : ParseError}
    (failed : concrete (Tokens.ofText source) = .error error) :
    ofText source = .error (.parse error) := by
  unfold ofText
  rw [failed]
  rfl

/-- Where the rejection of tokens points to: at the first token that no program has at its place, or
at the last one if the tokens begin a program. -/
theorem concrete_rejects {scanned : Tokens} (whole : scanned.stray = none)
    (underivable : ¬ Derivable (terminalsOf scanned.tokens)) :
    ∃ error, concrete scanned = .error error ∧
      ((∃ k token, error = .unexpectedToken token ∧ scanned.tokens[k]? = some token ∧
          error.loc = token.loc.atStart ∧ Viable ((terminalsOf scanned.tokens).take k) ∧
          ¬ Viable ((terminalsOf scanned.tokens).take (k + 1))) ∨
        ∃ last, error = .unexpectedEnd last.loc ∧ scanned.tokens.getLast? = some last ∧
          error.loc = last.loc.atStart ∧
          ∃ more, more ≠ [] ∧ Derivable (terminalsOf scanned.tokens ++ more)) := by
  match parsed : Concrete.parse scanned.tokens with
  | .ok body => exact absurd (Concrete.exists_parse_iff_derivable.mp ⟨body, parsed⟩) underivable
  | .error .depth => exact absurd parsed (Concrete.parse_ne_depth _)
  | .error (.token token) =>
      obtain ⟨taken, rest, split, viable, dead⟩ := Concrete.first_of_parse_token parsed
      refine ⟨.unexpectedToken token, ?_, .inl ⟨taken.length, token, rfl, ?_, rfl, ?_, ?_⟩⟩
      · unfold concrete
        rw [parsed]
        rfl
      · rw [split, List.getElem?_append_right (Nat.le_refl _), Nat.sub_self]
        rfl
      · have front : (terminalsOf scanned.tokens).take taken.length = terminalsOf taken := by
          simp [split]
        rwa [front]
      · have front : (terminalsOf scanned.tokens).take (taken.length + 1) =
            terminalsOf taken ++ [token.terminal] := by
          have cut : terminalsOf scanned.tokens =
              terminalsOf taken ++ [token.terminal] ++ terminalsOf rest := by simp [split]
          rw [cut, List.take_left' (by simp)]
        rwa [front]
  | .error .atEnd =>
      have nonempty : scanned.tokens ≠ [] := by
        intro none
        refine underivable ⟨[], ?_⟩
        rw [none]
        exact .noStatements
      obtain ⟨last, final⟩ : ∃ last, scanned.tokens.getLast? = some last :=
        ⟨_, List.getLast?_eq_getLast_of_ne_nil nonempty⟩
      obtain ⟨more, derivable⟩ := Concrete.viable_of_parse_atEnd parsed
      refine ⟨.unexpectedEnd last.loc, ?_, .inr ⟨last, rfl, final, rfl, more, ?_, derivable⟩⟩
      · unfold concrete
        rw [parsed]
        simp only [rejectionError]
        rw [whole, final]
      · rintro rfl
        rw [List.append_nil] at derivable
        exact underivable derivable

/-- A stray character is the error if the tokens before it begin a program. -/
theorem concrete_stray {scanned : Tokens} {c : Char} {place : Cursor}
    (stray : scanned.stray = some (c, place)) (viable : Viable (terminalsOf scanned.tokens)) :
    concrete scanned = .error (.unexpectedCharacter c place) := by
  unfold concrete
  match parsed : Concrete.parse scanned.tokens with
  | .ok body => rw [stray]
  | .error (.token token) => exact absurd viable (Concrete.parse_token_iff.mp ⟨token, parsed⟩)
  | .error .atEnd =>
      simp only [rejectionError]
      rw [stray]
  | .error .depth => exact absurd parsed (Concrete.parse_ne_depth _)

theorem concrete_dead {scanned : Tokens} (dead : ¬ Viable (terminalsOf scanned.tokens)) :
    ∃ token, concrete scanned = .error (.unexpectedToken token) := by
  obtain ⟨token, parsed⟩ := Concrete.parse_token_iff.mpr dead
  refine ⟨token, ?_⟩
  unfold concrete
  rw [parsed]
  rfl

def wordOf (source : List Char) : List Terminal :=
  terminalsOf (Tokens.ofText source).tokens

/-- A text that is all tokens and no program is rejected at its first impossible token, or at its
last token if it is the beginning of a program. Where the tokens end before a stray character, that
character is the error if and only if the tokens before it begin a program. -/
theorem syntax_error_first (source : List Char) :
    ((Tokens.ofText source).stray = none → ¬ Derivable (wordOf source) → ∃ error,
      ofText source = .error (.parse error) ∧
      ((∃ k token, error = .unexpectedToken token ∧ (Tokens.ofText source).tokens[k]? = some token ∧
          error.loc = token.loc.atStart ∧ Viable ((wordOf source).take k) ∧
          ¬ Viable ((wordOf source).take (k + 1))) ∨
        ∃ last, error = .unexpectedEnd last.loc ∧
          (Tokens.ofText source).tokens.getLast? = some last ∧
          error.loc = last.loc.atStart ∧ ∃ more, more ≠ [] ∧ Derivable (wordOf source ++ more))) ∧
    ∀ c place, (Tokens.ofText source).stray = some (c, place) →
      (ofText source = .error (.parse (.unexpectedCharacter c place)) ↔ Viable (wordOf source)) := by
  constructor
  · intro whole underivable
    obtain ⟨error, failed, points⟩ := concrete_rejects whole underivable
    exact ⟨error, ofText_of_concrete failed, points⟩
  · intro c place stray
    constructor
    · intro failed
      by_contra dead
      obtain ⟨token, rejected⟩ := concrete_dead dead
      rw [ofText_of_concrete rejected] at failed
      cases failed
    · intro viable
      exact ofText_of_concrete (concrete_stray stray viable)

/-- A text that ends inside a block is rejected at its end, and there are tokens to complete it. -/
theorem syntax_error_open_block : ∃ source last,
    (Tokens.ofText source).stray = none ∧
    ¬ Derivable (wordOf source) ∧
    ofText source = .error (.parse (.unexpectedEnd last)) ∧
    ∃ more, more ≠ [] ∧ Derivable (wordOf source ++ more) := by
  let source := "if (a) \x7b b;".toList
  have whole : (Tokens.ofText source).stray = none := by decide +kernel
  have ended : (match Concrete.parse (Tokens.ofText source).tokens with
      | .error .atEnd => true
      | _ => false) = true := by decide +kernel
  have underivable : ¬ Derivable (wordOf source) := by
    intro derivable
    obtain ⟨body, parsed⟩ := Concrete.exists_parse_iff_derivable.mpr derivable
    rw [parsed] at ended
    cases ended
  obtain ⟨error, failed, ⟨_, token, rfl, -⟩ | ⟨last, rfl, -, -, completed⟩⟩ :=
    (syntax_error_first source).1 whole underivable
  · have computed : (match ofText source with
        | .error (.parse (.unexpectedEnd _)) => true
        | _ => false) = true := by decide +kernel
    rw [failed] at computed
    cases computed
  · exact ⟨source, last.loc, whole, underivable, failed, completed⟩

end Program

end LoopCapture
