import LoopCapture.Proofs.Token.Scanning

/-!
# Ranges of tokens

A range of a text is sound if it lies in the text and has the line and the column of its first
character: lines count the line feeds before it, and columns the characters after the last of those.
The ranges of the tokens of a text are sound, and the text of a token stands at its range.
-/

set_option autoImplicit false

namespace LoopCapture

def lineAfter (before : List Char) : Nat := 1 + before.count '\n'

def columnAfter (before : List Char) : Nat := 1 + (before.reverse.takeWhile (· != '\n')).length

namespace Loc

/-- The characters of a text at a range. -/
def slice (loc : Loc) (source : List Char) : List Char :=
  (source.drop loc.start).take (loc.stop - loc.start)

/-- A range lies in a text and has the line and the column of its start. -/
structure Sound (source : List Char) (loc : Loc) : Prop where
  ordered : loc.start ≤ loc.stop
  inside : loc.stop ≤ source.length
  line : loc.line = lineAfter (source.take loc.start)
  column : loc.column = columnAfter (source.take loc.start)

theorem Sound.atStart {source : List Char} {loc : Loc} (sound : loc.Sound source) :
    loc.atStart.Sound source :=
  ⟨Nat.le_refl _, sound.ordered.trans sound.inside, sound.line, sound.column⟩

/-- A range that starts like a sound one is sound if it ends in the text. -/
theorem Sound.of_atStart {source : List Char} {loc other : Loc} (sound : other.Sound source)
    (same : other.atStart = loc.atStart) (ordered : loc.start ≤ loc.stop)
    (inside : loc.stop ≤ source.length) : loc.Sound source := by
  obtain ⟨line, column, start, stop⟩ := loc
  obtain ⟨rfl, rfl, rfl, -⟩ := Loc.mk.inj same
  exact ⟨ordered, inside, sound.line, sound.column⟩

theorem slice_append {loc : Loc} {before text after : List Char} (start : loc.start = before.length)
    (stop : loc.stop = before.length + text.length) :
    loc.slice (before ++ text ++ after) = text := by
  rw [slice, start, stop, List.append_assoc, List.drop_left, Nat.add_sub_cancel_left,
    List.take_left]

end Loc

/-! ## Places while a text is read -/

theorem Cursor.advance_origin (before : List Char) :
    Cursor.origin.advance before = ⟨lineAfter before, columnAfter before, before.length⟩ := by
  induction before using List.reverseRecOn with
  | nil => rfl
  | append_singleton before c ih =>
      rw [Cursor.advance, List.foldl_append, List.foldl_cons, List.foldl_nil]
      rw [show before.foldl Cursor.step Cursor.origin = _ from ih]
      unfold Cursor.step
      split
      · rename_i feed
        subst feed
        simp [lineAfter, columnAfter, Nat.add_assoc]
      · rename_i other
        simp [lineAfter, columnAfter, other, Nat.add_comm]

theorem Cursor.advance_append (here : Cursor) (text more : List Char) :
    here.advance (text ++ more) = (here.advance text).advance more := by
  simp [Cursor.advance]

/-- A token stands in a text, with its own text at its range. -/
def Token.Stands (source : List Char) (token : Token) : Prop :=
  ∃ before after, source = before ++ token.terminal.text.toList ++ after ∧
    token.loc = (Cursor.origin.advance before).rangeTo
      (Cursor.origin.advance (before ++ token.terminal.text.toList))

/-- A character stands in a text at a place. -/
def Cursor.Stands (source : List Char) (c : Char) (place : Cursor) : Prop :=
  ∃ before after, source = before ++ c :: after ∧ place = Cursor.origin.advance before

theorem Token.Stands.sound {source : List Char} {token : Token} (stands : token.Stands source) :
    token.loc.Sound source := by
  obtain ⟨before, after, rfl, loc⟩ := stands
  rw [Cursor.advance_origin, Cursor.advance_origin] at loc
  rw [loc]
  refine ⟨?_, ?_, ?_, ?_⟩ <;> simp [Cursor.rangeTo, List.append_assoc]

theorem Token.Stands.slice {source : List Char} {token : Token} (stands : token.Stands source) :
    token.loc.slice source = token.terminal.text.toList := by
  obtain ⟨before, after, rfl, loc⟩ := stands
  rw [Cursor.advance_origin, Cursor.advance_origin] at loc
  refine Loc.slice_append ?_ ?_
  · rw [loc, Cursor.rangeTo]
  · rw [loc, Cursor.rangeTo, List.length_append]

theorem Cursor.Stands.sound {source : List Char} {c : Char} {place : Cursor}
    (stands : place.Stands source c) : (place.rangeTo place).Sound source := by
  obtain ⟨before, after, rfl, rfl⟩ := stands
  rw [Cursor.advance_origin]
  refine ⟨?_, ?_, ?_, ?_⟩ <;> simp [Cursor.rangeTo]

/-! ## Scanning -/

namespace Lexer

/-- By induction on the rounds: the rest of the text is read behind what has been read. -/
theorem scan_stands (rounds : Nat) (before text : List Char) :
    (∀ token ∈ (scan rounds (Cursor.origin.advance before) text).tokens,
      token.Stands (before ++ text)) ∧
    ∀ c place, (scan rounds (Cursor.origin.advance before) text).stray = some (c, place) →
      place.Stands (before ++ text) c := by
  induction rounds generalizing before text with
  | zero => simp [scan]
  | succ rounds ih =>
      cases text with
      | nil => simp [scan]
      | cons first rest =>
          unfold scan
          split
          · refine ⟨by simp, ?_⟩
            rintro c place found
            obtain ⟨rfl, rfl⟩ := Prod.mk.inj (Option.some.inj found)
            exact ⟨before, rest, rfl, rfl⟩
          · rename_i piece found
            obtain ⟨-, short, read⟩ := piece?_eq_some found
            have later := ih (before ++ (first :: rest).take piece.length)
              ((first :: rest).drop piece.length)
            rw [List.append_assoc, List.take_append_drop, Cursor.advance_append] at later
            dsimp only
            split
            · exact later
            · rename_i terminal length
              refine ⟨?_, later.2⟩
              have text := read terminal length rfl
              rintro token member
              obtain rfl | further := List.mem_cons.mp member
              · refine ⟨before, (first :: rest).drop length, ?_, ?_⟩
                · rw [List.append_assoc, ← text, List.take_append_drop]
                · show Cursor.rangeTo _ _ = Cursor.rangeTo _ _
                  rw [Cursor.advance_append, ← text]
                  rfl
              · exact later.1 token further

end Lexer

theorem Tokens.stands_ofText (source : List Char) :
    (∀ token ∈ (Tokens.ofText source).tokens, token.Stands source) ∧
    ∀ c place, (Tokens.ofText source).stray = some (c, place) → place.Stands source c :=
  Lexer.scan_stands source.length [] source

end LoopCapture
