import LoopCapture.Proofs.Concrete.Layout
import LoopCapture.Token.Lexer
import Mathlib.Tactic.Common

/-!
# Pieces of a text and the places of its tokens

Every piece takes at least one character, a token has the text that it was read from, and the
tokens of a text lie one after the other.
-/

set_option autoImplicit false

namespace LoopCapture

theorem Cursor.offset_step (here : Cursor) (c : Char) : (here.step c).offset = here.offset + 1 := by
  unfold Cursor.step
  split <;> rfl

theorem Cursor.offset_advance (here : Cursor) (cs : List Char) :
    (here.advance cs).offset = here.offset + cs.length := by
  induction cs generalizing here with
  | nil => rfl
  | cons c rest ih =>
      have next := ih (here.step c)
      rw [Cursor.offset_step] at next
      simp only [Cursor.advance, List.foldl_cons, List.length_cons] at next ⊢
      omega

namespace Lexer

/-! ## Lengths -/

theorem blockCommentLength?_bounds {cs : List Char} {length : Nat}
    (found : blockCommentLength? cs = some length) : 2 ≤ length ∧ length ≤ cs.length := by
  fun_induction blockCommentLength? cs generalizing length with
  | case1 rest =>
      obtain rfl := Option.some.inj found
      simp
  | case2 c rest different ih =>
      obtain ⟨inner, innerFound, rfl⟩ := Option.map_eq_some_iff.mp found
      have bounds := ih innerFound
      simp only [List.length_cons]
      omega
  | case3 => cases found

theorem stringLength?_bounds {quote : Char} {cs : List Char} {length : Nat}
    (found : stringLength? quote cs = some length) : 1 ≤ length ∧ length ≤ cs.length := by
  fun_induction stringLength? quote cs generalizing length with
  | case1 => cases found
  | case2 rest => cases found
  | case3 c rest _ ih =>
      obtain ⟨inner, innerFound, rfl⟩ := Option.map_eq_some_iff.mp found
      have bounds := ih innerFound
      simp only [List.length_cons]
      omega
  | case4 rest different =>
      obtain rfl := Option.some.inj found
      simp
  | case5 c rest => cases found
  | case6 c rest _ _ _ ih =>
      obtain ⟨inner, innerFound, rfl⟩ := Option.map_eq_some_iff.mp found
      have bounds := ih innerFound
      simp only [List.length_cons]
      omega

theorem length_takeWhile_le {α : Type} (test : α → Bool) (items : List α) :
    (items.takeWhile test).length ≤ items.length :=
  (List.takeWhile_prefix test).length_le

theorem numberLength_bounds {c : Char} (digit : Text.isDecimal c = true) (rest : List Char) :
    1 ≤ numberLength (c :: rest) ∧ numberLength (c :: rest) ≤ (c :: rest).length := by
  have whole : 1 ≤ ((c :: rest).takeWhile Text.isDecimal).length := by
    simp [digit]
  have short := length_takeWhile_le Text.isDecimal (c :: rest)
  unfold numberLength
  dsimp only
  split
  next fraction split =>
    have lengths := congrArg List.length split
    simp only [List.length_drop, List.length_cons] at lengths short
    have digits := length_takeWhile_le Text.isDecimal fraction
    split
    · exact ⟨whole, short⟩
    · simp only [List.length_cons]
      omega
  next => exact ⟨whole, short⟩

theorem mark?_eq_some {cs : List Char} {mark : Mark} (found : mark? cs = some mark) :
    mark.text.toList <+: cs := by
  have first := List.find?_some found
  exact List.isPrefixOf_iff_prefix.mp first

theorem length_mark_pos (mark : Mark) : 1 ≤ mark.text.length := by
  cases mark <;> decide

/-! ## Pieces -/

theorem text_word (text : String) : (wordTerminal text).text = text := by
  unfold wordTerminal
  split
  next word found =>
    have same := List.find?_some found
    exact eq_of_beq same
  next => rfl

/-- A piece that is neither blank nor a comment has the text of its terminal. -/
theorem terminalPiece?_eq_some {c : Char} {rest : List Char} {piece : Piece}
    (found : terminalPiece? c rest = some piece) :
    ∃ terminal, piece = .terminal terminal piece.length ∧ 1 ≤ piece.length ∧
      piece.length ≤ (c :: rest).length ∧ (c :: rest).take piece.length = terminal.text.toList := by
  unfold terminalPiece? at found
  dsimp only at found
  split at found
  next start =>
    obtain rfl := Option.some.inj found
    refine ⟨_, rfl, ?_, length_takeWhile_le _ _, ?_⟩
    · have inside : isNameChar c = true := by
        unfold isNameStart at start
        unfold isNameChar Char.isAlphanum
        grind
      simp [Piece.length, inside]
    · rw [text_word, String.toList_ofList]
      exact (List.prefix_iff_eq_take.mp (List.takeWhile_prefix _)).symm
  next =>
    split at found
    next digit =>
      obtain rfl := Option.some.inj found
      obtain ⟨positive, short⟩ := numberLength_bounds digit rest
      exact ⟨_, rfl, positive, short, by rw [Terminal.text, String.toList_ofList]; rfl⟩
    next =>
      split at found
      next =>
        obtain ⟨length, closed, rfl⟩ := Option.map_eq_some_iff.mp found
        have bounds := stringLength?_bounds closed
        refine ⟨_, rfl, ?_, ?_, by rw [Terminal.text, String.toList_ofList]; rfl⟩
        · simp only [Piece.length]
          omega
        · simp only [Piece.length, List.length_cons]
          omega
      next =>
        obtain ⟨mark, fits, rfl⟩ := Option.map_eq_some_iff.mp found
        have front := mark?_eq_some fits
        refine ⟨_, rfl, length_mark_pos mark, ?_, ?_⟩
        · have short := front.length_le
          rwa [String.length_toList] at short
        · rw [Piece.length, ← String.length_toList]
          exact (List.prefix_iff_eq_take.mp front).symm

/-- Pieces take at least one character and no more than there are; a terminal has the text that it
is read from. -/
theorem piece?_eq_some {c : Char} {rest : List Char} {piece : Piece}
    (found : piece? c rest = some piece) :
    1 ≤ piece.length ∧ piece.length ≤ (c :: rest).length ∧
      ∀ terminal length, piece = .terminal terminal length →
        (c :: rest).take length = terminal.text.toList := by
  have main (inner : terminalPiece? c rest = some piece) : 1 ≤ piece.length ∧
      piece.length ≤ (c :: rest).length ∧ ∀ terminal length, piece = .terminal terminal length →
        (c :: rest).take length = terminal.text.toList := by
    obtain ⟨terminal, same, positive, short, text⟩ := terminalPiece?_eq_some inner
    refine ⟨positive, short, fun other length equal => ?_⟩
    rw [same] at equal
    cases equal
    exact text
  unfold piece? at found
  split at found
  next blank =>
    obtain rfl := Option.some.inj found
    refine ⟨?_, length_takeWhile_le _ _, fun _ _ different => nomatch different⟩
    simp [Piece.length, blank]
  next =>
    split at found
    next _ more _ =>
      obtain rfl := Option.some.inj found
      have short := length_takeWhile_le (· != '\n') more
      refine ⟨?_, ?_, fun _ _ different => nomatch different⟩
      all_goals simp only [Piece.length, List.length_cons]
      all_goals omega
    next =>
      split at found
      next length closed =>
        obtain rfl := Option.some.inj found
        have bounds := blockCommentLength?_bounds closed
        refine ⟨?_, ?_, fun _ _ different => nomatch different⟩
        all_goals simp only [Piece.length, List.length_cons]
        all_goals omega
      next => exact main found
    next => exact main found

/-! ## Places of tokens -/

theorem ordered_scan (rounds : Nat) (here : Cursor) (text : List Char) :
    Token.Ordered (here.offset + text.length) here.offset (scan rounds here text).tokens := by
  induction rounds generalizing here text with
  | zero => exact Nat.le_add_right _ _
  | succ rounds ih =>
      cases text with
      | nil => exact Nat.le_add_right _ _
      | cons c rest =>
          unfold scan
          split
          · exact Nat.le_add_right _ _
          · rename_i piece found
            obtain ⟨positive, short, -⟩ := piece?_eq_some found
            have next := Cursor.offset_advance here ((c :: rest).take piece.length)
            rw [List.length_take_of_le short] at next
            have later := ih (here.advance ((c :: rest).take piece.length))
              ((c :: rest).drop piece.length)
            have limit : here.offset + piece.length + ((c :: rest).drop piece.length).length =
                here.offset + (c :: rest).length := by
              rw [List.length_drop]
              omega
            rw [next, limit] at later
            dsimp only
            split
            · exact later.mono (Nat.le_add_right _ _)
            · refine ⟨Nat.le_refl _, ?_, ?_⟩
              · show here.offset < (here.advance _).offset
                rw [next]
                omega
              · show Token.Ordered _ (here.advance _).offset _
                rw [next]
                exact later

end Lexer

theorem Tokens.ordered_ofText {source : List Char} {tokens : List Token}
    {stray : Option (Char × Cursor)} (read : Tokens.ofText source = ⟨tokens, stray⟩) :
    Token.Ordered source.length 0 tokens := by
  have scanned := Lexer.ordered_scan source.length .origin source
  have same : Lexer.scan source.length .origin source = ⟨tokens, stray⟩ := read
  rw [same, Cursor.origin, Nat.zero_add] at scanned
  exact scanned

end LoopCapture
