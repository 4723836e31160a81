import LoopCapture.Proofs.Outline.Layout
import LoopCapture.Proofs.Ranges.Literals
import LoopCapture.Proofs.Concrete.Failures
import LoopCapture.Proofs.Ranges.Tokens
import LoopCapture.Proofs.Grammar.FirstError
import LoopCapture.Proofs.Outline.Regular

/-!
# Ranges of programs

The ranges of the nodes of a program are nested ranges of its text, and names, literals and blocks
stand at theirs. The range of an error is a range of the text as well.
-/

set_option autoImplicit false

namespace LoopCapture

open Tree

/-! ## Nodes in order -/

namespace Outline

mutual

theorem Laid.part : ∀ {tree part : Tree Label}, Laid tree → part ∈ tree.subtrees →
    Laid part ∧ tree.label.loc.start ≤ part.label.loc.start ∧
      part.label.loc.stop ≤ tree.label.loc.stop
  | .node root children, part, laid, inside => by
      obtain rfl | below := List.mem_cons.mp inside
      · exact ⟨laid, Nat.le_refl _, Nat.le_refl _⟩
      · obtain ⟨here, first, last⟩ := LaidAll.part laid.2 below
        exact ⟨here, root.start_le_inside.trans first, last.trans root.ending_le_stop⟩

/-- Every part of trees in order is in order, between the same two offsets. -/
theorem LaidAll.part : ∀ {trees : List (Tree Label)} {start stop : Nat} {part : Tree Label},
    LaidAll start stop trees → part ∈ subtreesAll trees →
    Laid part ∧ start ≤ part.label.loc.start ∧ part.label.loc.stop ≤ stop
  | [], start, stop, part, laid, inside => by simp [subtreesAll] at inside
  | tree :: rest, start, stop, part, laid, inside => by
      obtain ⟨before, here, later⟩ := laid
      have nonempty := here.start_lt
      have ending := later.start_le
      obtain inFirst | inRest := List.mem_append.mp inside
      · obtain ⟨found, first, last⟩ := Laid.part here inFirst
        exact ⟨found, by omega, by omega⟩
      · obtain ⟨found, first, last⟩ := LaidAll.part later inRest
        exact ⟨found, by omega, last⟩

end

theorem LaidAll.child {trees : List (Tree Label)} {start stop : Nat}
    (laid : LaidAll start stop trees) {child : Tree Label} (member : child ∈ trees) :
    Laid child ∧ start ≤ child.label.loc.start ∧ child.label.loc.stop ≤ stop :=
  laid.part (mem_subtreesAll.mpr ⟨child, member, self_mem_subtrees child⟩)

theorem LaidAll.pairwise {trees : List (Tree Label)} {start stop : Nat}
    (laid : LaidAll start stop trees) :
    trees.Pairwise fun first second => first.label.loc.stop ≤ second.label.loc.start := by
  induction trees generalizing start with
  | nil => exact .nil
  | cons tree rest ih =>
      obtain ⟨-, -, later⟩ := laid
      exact .cons (fun second member => (later.child member).2.1) (ih later)

end Outline

/-! ## Ranges -/

theorem Loc.within_of_le {inner outer : Loc} (first : outer.start ≤ inner.start)
    (last : inner.stop ≤ outer.stop) : inner.within outer = true := by
  simp [Loc.within, first, last]

/-- Between an opening and a closing brace of a text. -/
theorem Loc.slice_braces {source : List Char} {first last : Token}
    (opened : first.terminal = .mark .openBrace) (closed : last.terminal = .mark .closeBrace)
    (firstStands : first.Stands source) (lastStands : last.Stands source)
    (ordered : first.loc.start < last.loc.stop) :
    ∃ inner, (first.loc.upTo last.loc).slice source = '\x7b' :: inner ++ ['\x7d'] := by
  obtain ⟨before, rest, split, firstLoc⟩ := firstStands
  obtain ⟨beforeLast, after, splitLast, lastLoc⟩ := lastStands
  rw [opened, Cursor.advance_origin, Cursor.advance_origin] at firstLoc
  rw [closed, Cursor.advance_origin, Cursor.advance_origin] at lastLoc
  have start : first.loc.start = before.length := by rw [firstLoc, Cursor.rangeTo]
  have stop : last.loc.stop = beforeLast.length + 1 := by
    rw [lastLoc, Cursor.rangeTo]
    exact List.length_append
  rw [opened, List.append_assoc] at split
  rw [closed, List.append_assoc] at splitLast
  have short : before.length ≤ beforeLast.length := by omega
  obtain ⟨between, rfl⟩ : before <+: beforeLast :=
    List.prefix_of_prefix_length_le ⟨_, split.symm⟩ ⟨_, splitLast.symm⟩ short
  rw [split, List.append_assoc] at splitLast
  have tail := List.append_cancel_left splitLast
  -- A brace cannot be both, so something lies between the starts of the two tokens.
  cases between with
  | nil => cases (List.cons.inj tail).1
  | cons brace inner =>
      obtain ⟨same, others⟩ := List.cons.inj tail
      refine ⟨inner, ?_⟩
      have whole : source = before ++ ('\x7b' :: inner ++ ['\x7d']) ++ after := by
        rw [split, List.append_assoc]
        exact congrArg (before ++ '\x7b' :: ·) (others.trans (by simp; rfl))
      rw [whole]
      refine Loc.slice_append start (stop.trans ?_)
      simp only [List.length_append, List.length_cons, List.length_nil]
      omega

/-- The ranges of a node and of its children fit a text. -/
structure Outline.Ranged (source : List Char) (part : Tree Label) : Prop where
  sound : part.label.loc.Sound source
  nonempty : ∀ child ∈ part.children, child.label.loc.start < child.label.loc.stop
  nested : ∀ child ∈ part.children, child.label.loc.within part.label.loc = true
  apart : part.children.Pairwise fun first second =>
    first.label.loc.stop ≤ second.label.loc.start
  name : ∀ name, part.label.form = .identifier name →
    part.label.loc.slice source = name.toList
  braces : part.label.form = .block →
    ∃ inner, part.label.loc.slice source = '\x7b' :: inner ++ ['\x7d']

namespace Outline

variable {source : List Char} {all : List Token}

/-- A part in order whose label is anchored at tokens of a text fits the text. -/
theorem Ranged.of_laid {part : Tree Label} (stands : ∀ token ∈ all, token.Stands source)
    (anchored : part.label.Anchored all) (laid : Laid part)
    (inside : part.label.loc.stop ≤ source.length) : Ranged source part := by
  obtain ⟨label, children⟩ := part
  obtain ⟨token, member, same⟩ := anchored.starts
  have row := laid.2.mono label.start_le_inside label.ending_le_stop
  refine ⟨?_, fun child among => (row.child among).1.start_lt, ?_, row.pairwise, ?_, ?_⟩
  · exact (stands token member).sound.of_atStart same laid.start_lt.le inside
  · intro child among
    obtain ⟨-, first, last⟩ := row.child among
    exact Loc.within_of_le first last
  · intro name form
    exact (stands _ (anchored.name name form)).slice
  · intro form
    obtain ⟨first, last, opened, closed, loc⟩ := anchored.braces form
    have ordered := laid.start_lt
    rw [loc] at ordered ⊢
    exact Loc.slice_braces rfl rfl (stands _ opened) (stands _ closed) ordered

/-- The parts of trees that are in order and anchored at the tokens of a text. -/
theorem ranged_of_laidAll {trees : List (Tree Label)} (stands : ∀ token ∈ all, token.Stands source)
    (anchored : AnchoredAll all trees) (laid : LaidAll 0 source.length trees) {part : Tree Label}
    (inside : part ∈ subtreesAll trees) : Ranged source part := by
  obtain ⟨here, -, last⟩ := laid.part inside
  have member : part.label ∈ preorderAll trees := by
    rw [preorderAll_eq_map]
    exact List.mem_map_of_mem inside
  exact .of_laid stands (anchored part.label member) here last

theorem Ranged.root {trees : List (Tree Label)} (laid : LaidAll 0 source.length trees) :
    Ranged source (.node ⟨.plain, .program, ⟨1, 1, 0, source.length⟩⟩ trees) := by
  refine ⟨⟨Nat.zero_le _, Nat.le_refl _, rfl, rfl⟩, ?_, ?_, laid.pairwise, nofun, nofun⟩
  · exact fun child among => (laid.child among).1.start_lt
  · intro child among
    obtain ⟨-, -, last⟩ := laid.child among
    exact Loc.within_of_le (Nat.zero_le _) last

end Outline

namespace Program

open Outline

variable {source : List Char}

theorem laid_of_concrete {trees : List Concrete.Stmt}
    (accepted : concrete (Tokens.ofText source) = .ok trees) :
    LaidAll 0 source.length (Concrete.stmtShapes trees) ∧
      AnchoredAll (Tokens.ofText source).tokens (Concrete.stmtShapes trees) := by
  obtain ⟨-, spelled, -⟩ := concrete_eq_ok accepted
  exact Concrete.laid_of_spelled rfl spelled

/-- The nodes of a program that was read from a text fit the text. -/
theorem ranged_of_ofText {program : Program} (parsed : ofText source = .ok program)
    {part : Tree Label} (inside : part ∈ (shape program).subtrees) : Ranged source part := by
  obtain ⟨tokens, trees, scanned, spelled, -, built, loc⟩ := ofText_eq_ok parsed
  have laid := laid_of_ofText parsed
  rw [loc] at laid
  obtain rfl | below := List.mem_cons.mp inside
  · rw [loc]
    exact .root laid
  · have anchored := (Concrete.laid_of_spelled scanned spelled).2
    have stands := (Tokens.stands_ofText source).1
    rw [scanned] at stands
    rw [Build.shape_stmts built] at laid below
    exact ranged_of_laidAll stands anchored laid below

theorem literals_eq {program : Program} (parsed : ofText source = .ok program) :
    program.literals = literalsOf (Tokens.ofText source).tokens := by
  obtain ⟨tokens, trees, scanned, spelled, -, built, -⟩ := ofText_eq_ok parsed
  rw [scanned, Build.literals_stmts built spelled, literalsOf_nil, List.append_nil]
  rfl

theorem slice_of_mem_literals {program : Program} (parsed : ofText source = .ok program)
    {loc : Loc} {spelling : String} (member : (loc, spelling) ∈ program.literals) :
    loc.slice source = spelling.toList := by
  rw [literals_eq parsed] at member
  obtain ⟨token, among, rfl, rfl⟩ := mem_literalsOf member
  exact ((Tokens.stands_ofText source).1 token among).slice

theorem exists_literal {program : Program} (parsed : ofText source = .ok program)
    {part : Tree Label} (inside : part ∈ (shape program).subtrees)
    (literal : part.label.form = .literal) :
    ∃ spelling, (part.label.loc, spelling) ∈ program.literals := by
  obtain ⟨tokens, trees, scanned, spelled, -, built, -⟩ := ofText_eq_ok parsed
  obtain rfl | below := List.mem_cons.mp inside
  · cases literal
  · rw [Build.shape_stmts built] at below
    have member : part.label ∈ preorderAll (Concrete.stmtShapes trees) := by
      rw [preorderAll_eq_map]
      exact List.mem_map_of_mem below
    have anchored := (Concrete.laid_of_spelled scanned spelled).2
    obtain ⟨terminal, isLiteral, among⟩ := (anchored part.label member).literal literal
    rw [literals_eq parsed, scanned]
    exact ⟨terminal.text, List.mem_map_of_mem (List.mem_filter.mpr ⟨among, isLiteral⟩)⟩

/-! ## Errors -/

theorem sound_of_rejection {rejection : Concrete.Rejection}
    (failed : Concrete.parse (Tokens.ofText source).tokens = .error rejection) :
    (rejectionError (Tokens.ofText source) rejection).loc.Sound source := by
  obtain ⟨tokensStand, strayStands⟩ := Tokens.stands_ofText source
  unfold rejectionError
  split
  · rename_i token
    obtain ⟨taken, rest, split, -⟩ := Concrete.first_of_parse_token failed
    exact (tokensStand token (by simp [split])).sound.atStart
  · split
    · rename_i stray
      exact (strayStands _ _ stray).sound
    · rename_i ending
      exact (tokensStand _ (List.mem_of_getLast? ending)).sound.atStart
    · exact ⟨Nat.le_refl _, Nat.zero_le _, rfl, rfl⟩

theorem sound_of_concrete {error : ParseError}
    (failed : concrete (Tokens.ofText source) = .error error) : error.loc.Sound source := by
  unfold concrete at failed
  split at failed
  · rename_i rejected
    cases failed
    exact sound_of_rejection rejected
  · rename_i stray
    cases failed
    exact ((Tokens.stands_ofText source).2 _ _ stray).sound
  · cases failed

theorem sound_of_error {error : ParseError} (failed : ofText source = .error (.parse error)) :
    error.loc.Sound source := by
  unfold ofText at failed
  split at failed
  · rename_i rejected
    cases failed
    exact sound_of_concrete rejected
  · rename_i trees accepted
    obtain ⟨label, member, same⟩ :=
      (Build.fails_stmts trees (List.Subset.refl _)).bind (fun _ _ => .ok) (.parse error) failed
    rw [preorderAll_eq_map] at member
    obtain ⟨part, inside, rfl⟩ := List.mem_map.mp member
    obtain ⟨laid, anchored⟩ := laid_of_concrete accepted
    rw [← same]
    exact (ranged_of_laidAll (Tokens.stands_ofText source).1 anchored laid inside).sound

/-- In every text that is a program, all nodes are in their places and so are the names, the
literals and the braces. In every other text the error is. -/
theorem ranges_sound (source : List Char) :
    (∀ program, ofText source = .ok program →
      (∀ part ∈ (shape program).subtrees, Ranged source part ∧
        (part.label.form = .literal →
          ∃ spelling, (part.label.loc, spelling) ∈ program.literals)) ∧
      ∀ loc spelling, (loc, spelling) ∈ program.literals →
        loc.slice source = spelling.toList) ∧
    ∀ error, ofText source = .error (.parse error) → error.loc.Sound source := by
  refine ⟨fun program parsed => ⟨fun part inside => ?_, fun loc spelling member => ?_⟩, ?_⟩
  · exact ⟨ranged_of_ofText parsed inside, exists_literal parsed inside⟩
  · exact slice_of_mem_literals parsed member
  · exact fun error failed => sound_of_error failed

theorem exists_literal_part {source : List Char}
    (checked : ((ofText source).toOption.any fun program =>
        (shape program).subtrees.any (·.label.form == .literal)) = true) :
    ∃ program part, ofText source = .ok program ∧ part ∈ (shape program).subtrees ∧
      part.label.form = .literal := by
  obtain ⟨program, parsed, checked⟩ := Program.exists_of_any checked
  obtain ⟨part, inside, literal⟩ := List.any_eq_true.mp checked
  exact ⟨program, part, parsed, inside, eq_of_beq literal⟩

/-- A literal inside a block, and a declaration on the second line that lacks a value. -/
theorem ranges_sound_lines :
    (∃ program part, ofText "while (a) \x7b\n  f(12);\n\x7d".toList = .ok program ∧
      part ∈ (shape program).subtrees ∧ part.label.form = .literal ∧
      Ranged "while (a) \x7b\n  f(12);\n\x7d".toList part ∧
      ∃ spelling, (part.label.loc, spelling) ∈ program.literals ∧
        part.label.loc.slice "while (a) \x7b\n  f(12);\n\x7d".toList = spelling.toList) ∧
    ofText "f();\nconst a;".toList =
      .error (.parse (.missingInitializer "a" ⟨2, 7, 11, 12⟩)) ∧
    (⟨2, 7, 11, 12⟩ : Loc).Sound "f();\nconst a;".toList := by
  constructor
  · obtain ⟨program, part, parsed, inside, literal⟩ :=
      show ∃ program part, ofText "while (a) \x7b\n  f(12);\n\x7d".toList = .ok program ∧
          part ∈ (shape program).subtrees ∧ part.label.form = .literal from
        exists_literal_part (by decide +kernel)
    have sound := (ranges_sound _).1 program parsed
    obtain ⟨spelling, member⟩ := (sound.1 part inside).2 literal
    exact ⟨program, part, parsed, inside, literal, (sound.1 part inside).1, spelling, member,
      sound.2 _ spelling member⟩
  · have failed : ofText "f();\nconst a;".toList =
        .error (.parse (.missingInitializer "a" ⟨2, 7, 11, 12⟩)) :=
      eq_error_of_fault? (by decide +kernel)
    exact ⟨failed, (ranges_sound _).2 _ failed⟩

end Program

end LoopCapture
