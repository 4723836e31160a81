import LoopCapture.Proofs.Concrete.Completeness
import LoopCapture.Proofs.Concrete.Respelling
import LoopCapture.Proofs.Grammar.Canonical

/-!
# The parser accepts the grammar

Tokens are accepted if and only if their terminals are derivable. The tree that the parser yields is
then the one with a strict derivation, and there is no other but for places.
-/

set_option autoImplicit false

namespace LoopCapture.Concrete

/-- A sequence of terminals is a program. -/
def Derivable (word : List Terminal) : Prop :=
  ∃ body, Derives false .start body word

theorem derivable_iff_strict {word : List Terminal} :
    Derivable word ↔ ∃ body, Derives true .start body word := by
  constructor
  · rintro ⟨body, derived⟩
    exact derived.exists_strict
  · rintro ⟨body, derived⟩
    exact ⟨body, derived.relax⟩

/-- Tokens with the terminals of a strict derivation are read as its tree, with their places. -/
theorem parse_of_derives {tokens : List Token} {body : List Stmt}
    (derived : Derives true .start body (terminalsOf tokens)) :
    ∃ found, parse tokens = .ok found ∧
      Rewrite.stmts Respell.nothing found = Rewrite.stmts Respell.nothing body := by
  obtain ⟨formed, read⟩ := derives_stmts_iff.mp derived
  obtain ⟨rest, ⟨found, spelled, same⟩, restEmpty⟩ := Respell.stmts body tokens [] (by simp [read])
  obtain rfl : rest = [] := List.map_eq_nil_iff.mp restEmpty
  have foundFormed : stmtsWellFormed found := by
    rw [← Rewrite.stmts_unplaced_wellFormed, same, Rewrite.stmts_unplaced_wellFormed]
    exact formed
  exact ⟨found, parse_eq_ok_iff.mpr ⟨spelled, foundFormed⟩, same⟩

theorem derives_of_parse {tokens : List Token} {body : List Stmt} (parsed : parse tokens = .ok body) :
    Derives true .start body (terminalsOf tokens) := by
  obtain ⟨spelled, formed⟩ := parse_eq_ok_iff.mp parsed
  refine derives_stmts_iff.mpr ⟨formed, ?_⟩
  simpa using (terminals_stmts spelled).symm

theorem exists_parse_iff_derivable {tokens : List Token} :
    (∃ body, parse tokens = .ok body) ↔ Derivable (terminalsOf tokens) := by
  constructor
  · rintro ⟨body, parsed⟩
    exact ⟨body, (derives_of_parse parsed).relax⟩
  · intro derivable
    obtain ⟨body, derived⟩ := derivable_iff_strict.mp derivable
    obtain ⟨found, parsed, -⟩ := parse_of_derives derived
    exact ⟨found, parsed⟩

/-- The parser accepts exactly the derivable sequences. What it yields spells the tokens and is the
tree of the strict derivation, which is unique but for places. -/
theorem parse_accepts_grammar (tokens : List Token) :
    ((∃ body, parse tokens = .ok body) ↔ ∃ body, Derives false .start body (terminalsOf tokens)) ∧
    ∀ body, parse tokens = .ok body →
      stmtsSpell body tokens [] ∧ Derives true .start body (terminalsOf tokens) ∧
      ∀ other, Derives true .start other (terminalsOf tokens) →
        Rewrite.stmts Respell.nothing other = Rewrite.stmts Respell.nothing body := by
  refine ⟨exists_parse_iff_derivable, fun body parsed => ?_⟩
  refine ⟨(parse_eq_ok_iff.mp parsed).1, derives_of_parse parsed, fun other derived => ?_⟩
  obtain ⟨found, foundParsed, same⟩ := parse_of_derives derived
  obtain rfl : found = body := Except.ok.inj (foundParsed.symm.trans parsed)
  exact same.symm

/-- An `else` after two nested `if` statements is read with the inner one. -/
theorem parse_accepts_nested_if : ∃ tokens outer inner,
    terminalsOf tokens =
      [.keyword .if, .mark .openParen, .name "a", .mark .closeParen,
        .keyword .if, .mark .openParen, .name "b", .mark .closeParen, .mark .semicolon,
        .keyword .else, .mark .semicolon] ∧
    parse tokens = .ok [.ifElse outer (.name ⟨"a", outer⟩)
      (.ifElse inner (.name ⟨"b", inner⟩) (.empty inner) (some (.empty inner))) none] ∧
    Derives true .start [.ifElse outer (.name ⟨"a", outer⟩)
      (.ifElse inner (.name ⟨"b", inner⟩) (.empty inner) (some (.empty inner))) none]
      (terminalsOf tokens) := by
  refine ⟨[.keyword .if, .mark .openParen, .name "a", .mark .closeParen,
    .keyword .if, .mark .openParen, .name "b", .mark .closeParen, .mark .semicolon,
    .keyword .else, .mark .semicolon].map fun terminal => ⟨terminal, .nowhere⟩,
    .nowhere, .nowhere, rfl, rfl, ?_⟩
  exact ((parse_accepts_grammar _).2 _ rfl).2.1

end LoopCapture.Concrete
