import LoopCapture.Concrete.Parser

/-!
# Runs of parsers

A successful run of a parser takes tokens from the front and leaves the rest. The laws take a
parser apart at its first step, so that a run of a rule is described by the tokens that it takes
and by the runs of the goals that it calls.
-/

set_option autoImplicit false

namespace LoopCapture.Concrete

def next (tokens : List Token) : Option Terminal := tokens.head?.map Token.terminal

@[simp]
theorem next_cons (terminal : Terminal) (loc : Loc) (rest : List Token) :
    next (⟨terminal, loc⟩ :: rest) = some terminal := rfl

/-- A parser succeeds on some tokens, with a result, and leaves the rest. -/
def Parser.Yields {α : Type} (parser : Parser α) (tokens : List Token) (result : α)
    (rest : List Token) : Prop :=
  parser.run tokens = .ok (result, rest)

namespace Parser.Yields

variable {α β : Type} {tokens rest : List Token} {result : β}
variable {terminal : Terminal} {mark : Mark}

/-! ## Sequences -/

theorem bind_iff {parser : Parser α} {next : α → Parser β} :
    (parser >>= next).Yields tokens result rest ↔
      ∃ first between, parser.Yields tokens first between ∧
        (next first).Yields between result rest := by
  unfold Yields
  rw [StateT.run_bind]
  cases step : parser.run tokens with
  | error rejection => simp [bind, Except.bind]
  | ok found =>
      obtain ⟨first, between⟩ := found
      constructor
      · intro run
        exact ⟨first, between, rfl, run⟩
      · rintro ⟨_, _, same, run⟩
        cases same
        exact run

theorem pure_iff {value : β} :
    (pure value : Parser β).Yields tokens result rest ↔ result = value ∧ rest = tokens := by
  unfold Yields
  rw [StateT.run_pure]
  constructor
  · intro run
    cases run
    exact ⟨rfl, rfl⟩
  · rintro ⟨rfl, rfl⟩
    rfl

theorem bind_pure_iff {parser : Parser α} {make : α → β} :
    (parser >>= fun first => pure (make first)).Yields tokens result rest ↔
      ∃ first, parser.Yields tokens first rest ∧ result = make first := by
  simp only [bind_iff, pure_iff]
  constructor
  · rintro ⟨first, _, run, same, rfl⟩
    exact ⟨first, run, same⟩
  · rintro ⟨first, run, same⟩
    exact ⟨first, rest, run, same, rfl⟩

theorem map_iff {parser : Parser α} {change : α → β} :
    (change <$> parser).Yields tokens result rest ↔
      ∃ found, parser.Yields tokens found rest ∧ result = change found := by
  rw [map_eq_pure_bind, bind_pure_iff]

theorem get_bind {next : List Token → Parser β} :
    (get >>= next).Yields tokens result rest ↔ (next tokens).Yields tokens result rest := Iff.rfl

theorem set_bind {state : List Token} {next : PUnit → Parser β} :
    (set state >>= next).Yields tokens result rest ↔ (next ⟨⟩).Yields state result rest := Iff.rfl

theorem modify_bind {change : List Token → List Token} {next : PUnit → Parser β} :
    (modify change >>= next).Yields tokens result rest ↔
      (next ⟨⟩).Yields (change tokens) result rest := Iff.rfl

theorem not_throw {rejection : Rejection} :
    ¬ (throw rejection : Parser β).Yields tokens result rest := by
  simp [Yields, throw, throwThe, MonadExceptOf.throw, StateT.lift, StateT.run, bind, Except.bind]

theorem not_reject : ¬ (reject : Parser β).Yields tokens result rest := by
  unfold reject
  rw [get_bind]
  cases tokens with
  | nil => exact not_throw
  | cons token others => exact not_throw

/-! ## Tokens -/

theorem peek?_bind {next : Option Terminal → Parser β} :
    (peek? >>= next).Yields tokens result rest ↔
      (next (Concrete.next tokens)).Yields tokens result rest := Iff.rfl

theorem peekSecond?_bind {next : Option Terminal → Parser β} :
    (peekSecond? >>= next).Yields tokens result rest ↔
      (next (Concrete.next tokens.tail)).Yields tokens result rest := Iff.rfl

theorem atMark_bind {next : Bool → Parser β} :
    (atMark mark >>= next).Yields tokens result rest ↔
      (next (Concrete.next tokens == some (.mark mark))).Yields tokens result rest := Iff.rfl

theorem take?_iff {value : Terminal → Option α} {found : Option (α × Loc)} :
    (take? value).Yields tokens found rest ↔
      (∃ terminal loc a, tokens = ⟨terminal, loc⟩ :: rest ∧ value terminal = some a ∧
        found = some (a, loc)) ∨
        (next tokens).bind value = none ∧ found = none ∧ rest = tokens := by
  unfold take?
  rw [get_bind]
  cases tokens with
  | nil => simp [next, pure_iff]
  | cons token others =>
      obtain ⟨terminal, loc⟩ := token
      cases known : value terminal with
      | none =>
          simp only [known, pure_iff, next]
          grind
      | some a =>
          simp only [known, pure_iff, set_bind, next]
          grind

theorem take?_bind {value : Terminal → Option α} {next : Option (α × Loc) → Parser β} :
    (take? value >>= next).Yields tokens result rest ↔
      (∃ terminal loc a between, tokens = ⟨terminal, loc⟩ :: between ∧ value terminal = some a ∧
        (next (some (a, loc))).Yields between result rest) ∨
        (Concrete.next tokens).bind value = none ∧ (next none).Yields tokens result rest := by
  rw [bind_iff]
  simp only [take?_iff]
  constructor
  · rintro ⟨_, between, ⟨terminal, loc, a, rfl, known, rfl⟩ | ⟨absent, rfl, rfl⟩, run⟩
    · exact .inl ⟨terminal, loc, a, between, rfl, known, run⟩
    · exact .inr ⟨absent, run⟩
  · rintro (⟨terminal, loc, a, between, rfl, known, run⟩ | ⟨absent, run⟩)
    · exact ⟨_, between, .inl ⟨terminal, loc, a, rfl, known, rfl⟩, run⟩
    · exact ⟨none, tokens, .inr ⟨absent, rfl, rfl⟩, run⟩

theorem take_iff {value : Terminal → Option α} {found : α × Loc} :
    (take value).Yields tokens found rest ↔
      ∃ terminal, tokens = ⟨terminal, found.2⟩ :: rest ∧ value terminal = some found.1 := by
  unfold take
  rw [take?_bind]
  simp only [pure_iff, not_reject, and_false, or_false]
  constructor
  · rintro ⟨terminal, loc, a, _, rfl, known, rfl, rfl⟩
    exact ⟨terminal, rfl, known⟩
  · rintro ⟨terminal, rfl, known⟩
    exact ⟨terminal, found.2, found.1, rest, rfl, known, rfl, rfl⟩

theorem only_eq_some {other : Terminal} {found : Unit} :
    only terminal other = some found ↔ other = terminal := by
  simp [only]

theorem only_eq_none {other : Terminal} :
    only terminal other = none ↔ other ≠ terminal := by
  simp [only]

theorem nameText_eq_some {text : String} :
    nameText terminal = some text ↔ terminal = .name text := by
  cases terminal <;> simp [nameText]

theorem mark_iff {loc : Loc} :
    (Parser.mark mark).Yields tokens loc rest ↔ tokens = ⟨.mark mark, loc⟩ :: rest := by
  unfold Parser.mark
  rw [bind_iff]
  simp only [take_iff, pure_iff, only_eq_some]
  constructor
  · rintro ⟨_, _, ⟨_, rfl, rfl⟩, rfl, rfl⟩
    rfl
  · rintro rfl
    exact ⟨((), loc), rest, ⟨_, rfl, rfl⟩, rfl, rfl⟩

theorem keyword_iff {word : Keyword} {loc : Loc} :
    (Parser.keyword word).Yields tokens loc rest ↔ tokens = ⟨.keyword word, loc⟩ :: rest := by
  unfold Parser.keyword
  rw [bind_iff]
  simp only [take_iff, pure_iff, only_eq_some]
  constructor
  · rintro ⟨_, _, ⟨_, rfl, rfl⟩, rfl, rfl⟩
    rfl
  · rintro rfl
    exact ⟨((), loc), rest, ⟨_, rfl, rfl⟩, rfl, rfl⟩

theorem ident_iff {ident : Ident} :
    Parser.ident.Yields tokens ident rest ↔ tokens = ⟨.name ident.name, ident.loc⟩ :: rest := by
  unfold Parser.ident
  rw [bind_iff]
  simp only [take_iff, pure_iff, nameText_eq_some]
  constructor
  · rintro ⟨_, _, ⟨_, rfl, rfl⟩, rfl, rfl⟩
    rfl
  · rintro rfl
    exact ⟨(ident.name, ident.loc), rest, ⟨_, rfl, rfl⟩, rfl, rfl⟩

theorem mark_bind {next : Loc → Parser β} :
    (Parser.mark mark >>= next).Yields tokens result rest ↔
      ∃ loc between, tokens = ⟨.mark mark, loc⟩ :: between ∧
        (next loc).Yields between result rest := by
  simp only [bind_iff, mark_iff]

theorem mark_pure_iff {make : Loc → β} :
    (Parser.mark mark >>= fun loc => pure (make loc)).Yields tokens result rest ↔
      ∃ loc, tokens = ⟨.mark mark, loc⟩ :: rest ∧ result = make loc := by
  simp only [bind_pure_iff, mark_iff]

theorem keyword_bind {word : Keyword} {next : Loc → Parser β} :
    (Parser.keyword word >>= next).Yields tokens result rest ↔
      ∃ loc between, tokens = ⟨.keyword word, loc⟩ :: between ∧
        (next loc).Yields between result rest := by
  simp only [bind_iff, keyword_iff]

theorem ident_bind {next : Ident → Parser β} :
    (Parser.ident >>= next).Yields tokens result rest ↔
      ∃ ident between, tokens = ⟨.name ident.name, ident.loc⟩ :: between ∧
        (next ident).Yields between result rest := by
  simp only [bind_iff, ident_iff]

theorem only_absent :
    (next tokens).bind (only terminal) = none ↔ next tokens ≠ some terminal := by
  cases next tokens <;> simp [only_eq_none]

theorem only?_bind {next : Bool → Parser β} :
    ((do return (← take? (only terminal)).isSome : Parser Bool) >>= next).Yields tokens result rest ↔
      (∃ loc between, tokens = ⟨terminal, loc⟩ :: between ∧ (next true).Yields between result rest) ∨
        Concrete.next tokens ≠ some terminal ∧ (next false).Yields tokens result rest := by
  rw [bind_assoc, take?_bind]
  simp only [only_eq_some, only_absent]
  constructor
  · rintro (⟨_, loc, _, between, rfl, rfl, run⟩ | ⟨absent, run⟩)
    · exact .inl ⟨loc, between, rfl, run⟩
    · exact .inr ⟨absent, run⟩
  · rintro (⟨loc, between, rfl, run⟩ | ⟨absent, run⟩)
    · exact .inl ⟨_, loc, (), between, rfl, rfl, run⟩
    · exact .inr ⟨absent, run⟩

theorem mark?_bind {next : Bool → Parser β} :
    (Parser.mark? mark >>= next).Yields tokens result rest ↔
      (∃ loc between, tokens = ⟨.mark mark, loc⟩ :: between ∧
        (next true).Yields between result rest) ∨
        Concrete.next tokens ≠ some (.mark mark) ∧ (next false).Yields tokens result rest :=
  only?_bind

theorem keyword?_bind {word : Keyword} {next : Bool → Parser β} :
    (Parser.keyword? word >>= next).Yields tokens result rest ↔
      (∃ loc between, tokens = ⟨.keyword word, loc⟩ :: between ∧
        (next true).Yields between result rest) ∨
        Concrete.next tokens ≠ some (.keyword word) ∧ (next false).Yields tokens result rest :=
  only?_bind

theorem ident?_bind {next : Option Ident → Parser β} :
    (Parser.ident? >>= next).Yields tokens result rest ↔
      (∃ ident between, tokens = ⟨.name ident.name, ident.loc⟩ :: between ∧
        (next (some ident)).Yields between result rest) ∨
        (∀ text, Concrete.next tokens ≠ some (.name text)) ∧
          (next none).Yields tokens result rest := by
  unfold Parser.ident?
  rw [bind_assoc, take?_bind]
  have absent_iff : (Concrete.next tokens).bind nameText = none ↔
      ∀ text, Concrete.next tokens ≠ some (.name text) := by
    cases Concrete.next tokens with
    | none => simp
    | some terminal => cases terminal <;> simp [nameText]
  rw [absent_iff]
  simp only [nameText_eq_some]
  constructor
  · rintro (⟨_, loc, text, between, rfl, rfl, run⟩ | ⟨absent, run⟩)
    · exact .inl ⟨⟨text, loc⟩, between, rfl, run⟩
    · exact .inr ⟨absent, run⟩
  · rintro (⟨ident, between, rfl, run⟩ | ⟨absent, run⟩)
    · exact .inl ⟨_, ident.loc, ident.name, between, rfl, rfl, run⟩
    · exact .inr ⟨absent, run⟩

end Parser.Yields

/-! ## Runs with a bound on the depth -/

/-- A parser yields a result, unless the bound on the depth of calls is too small. -/
def Parser.Finds {α : Type} (parser : Parser α) (tokens : List Token) (result : α)
    (rest : List Token) : Prop :=
  parser.run tokens = .error .depth ∨ parser.Yields tokens result rest

namespace Parser.Finds

open Yields
variable {α β : Type} {tokens between rest : List Token} {first : α} {result : β} {loc : Loc}

section Sequences

variable {parser : Parser α} {next : α → Parser β}

theorem after (run : parser.Yields tokens first between)
    (later : (next first).Finds between result rest) :
    (parser >>= next).Finds tokens result rest := by
  have same : (parser >>= next).run tokens = (next first).run between := by
    rw [StateT.run_bind, show parser.run tokens = _ from run]
    rfl
  rw [Finds, Parser.Yields, same]
  exact later

theorem bind (run : parser.Finds tokens first between)
    (later : parser.Yields tokens first between → (next first).Finds between result rest) :
    (parser >>= next).Finds tokens result rest := by
  rcases run with deep | run
  · left
    rw [StateT.run_bind, deep]
    rfl
  · exact .after run (later run)

theorem andThen (run : parser.Finds tokens first between)
    (later : (next first).Finds between result rest) : (parser >>= next).Finds tokens result rest :=
  run.bind fun _ => later

theorem nested {γ : Type} {last : β → Parser γ} {final : γ} {middle : List Token}
    (run : (parser >>= next).Finds tokens result middle)
    (later : (last result).Finds middle final rest) :
    (parser >>= fun found => next found >>= last).Finds tokens final rest := by
  rw [← bind_assoc]
  exact run.andThen later

theorem pure : (Pure.pure result : Parser β).Finds tokens result tokens :=
  .inr rfl

theorem andPure {make : α → β} (run : parser.Finds tokens first rest) :
    (parser >>= fun first => Pure.pure (make first)).Finds tokens (make first) rest :=
  run.andThen .pure

theorem map {change : α → β} (run : parser.Finds tokens first rest) :
    (change <$> parser).Finds tokens (change first) rest := by
  rw [map_eq_pure_bind]
  exact run.andPure

end Sequences

theorem mark {mark : Mark} {next : Loc → Parser β} (later : (next loc).Finds between result rest) :
    (Parser.mark mark >>= next).Finds (⟨.mark mark, loc⟩ :: between) result rest :=
  .after (mark_iff.mpr rfl) later

theorem keyword {word : Keyword} {next : Loc → Parser β}
    (later : (next loc).Finds between result rest) :
    (Parser.keyword word >>= next).Finds (⟨.keyword word, loc⟩ :: between) result rest :=
  .after (keyword_iff.mpr rfl) later

theorem ident {x : Ident} {next : Ident → Parser β} (later : (next x).Finds between result rest) :
    (Parser.ident >>= next).Finds (⟨.name x.name, x.loc⟩ :: between) result rest :=
  .after (ident_iff.mpr rfl) later

theorem peek? {next : Option Terminal → Parser β}
    (later : (next (Concrete.next tokens)).Finds tokens result rest) :
    (Parser.peek? >>= next).Finds tokens result rest :=
  later

theorem peekSecond? {next : Option Terminal → Parser β}
    (later : (next (Concrete.next tokens.tail)).Finds tokens result rest) :
    (Parser.peekSecond? >>= next).Finds tokens result rest :=
  later

theorem atMark {mark : Mark} {next : Bool → Parser β}
    (later : (next (Concrete.next tokens == some (.mark mark))).Finds tokens result rest) :
    (Parser.atMark mark >>= next).Finds tokens result rest :=
  later

section Choices

variable {terminal : Terminal} {value : Terminal → Option α} {next : Option (α × Loc) → Parser β}

theorem taken (known : value terminal = some first)
    (later : (next (some (first, loc))).Finds between result rest) :
    (take? value >>= next).Finds (⟨terminal, loc⟩ :: between) result rest :=
  .after (take?_iff.mpr (.inl ⟨terminal, loc, first, rfl, known, rfl⟩)) later

theorem passed (absent : (Concrete.next tokens).bind value = none)
    (later : (next none).Finds tokens result rest) : (take? value >>= next).Finds tokens result rest :=
  .after (take?_iff.mpr (.inr ⟨absent, rfl, rfl⟩)) later

variable {next : Bool → Parser β}

theorem found (later : (next true).Finds between result rest) :
    ((do return (← take? (only terminal)).isSome : Parser Bool) >>= next).Finds
      (⟨terminal, loc⟩ :: between) result rest := by
  rw [bind_assoc]
  exact .taken (show only terminal terminal = some () from only_eq_some.mpr rfl) later

theorem missing (absent : Concrete.next tokens ≠ some terminal)
    (later : (next false).Finds tokens result rest) :
    ((do return (← take? (only terminal)).isSome : Parser Bool) >>= next).Finds tokens result
      rest := by
  rw [bind_assoc]
  exact .passed (only_absent.mpr absent) later

end Choices

end Parser.Finds

end LoopCapture.Concrete
