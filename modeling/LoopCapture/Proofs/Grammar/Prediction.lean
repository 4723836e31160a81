import LoopCapture.Proofs.Concrete.ParserLaws
import LoopCapture.Proofs.Concrete.SpelledTerminals

/-!
# Parsers that reject at the first impossible token

A parser predicts a language if it takes words of the language only, if what it has taken before an
early end or before a rejected token goes on to a word, and if it decides by the tokens up to the one
that it rejects or leaves first. The last part compares two versions of the parser, where the deep
one may have a larger bound on the depth of calls.
-/

set_option autoImplicit false

namespace LoopCapture.Concrete

namespace Parser

/-- What a run of a parser comes to. -/
abbrev Result (α : Type) := Except Rejection (α × List Token)

namespace Result

variable {α : Type}
variable {other : Parser α}

/-- All tokens were taken and none was rejected. -/
def Spent : Result α → Prop
  | .ok (_, rest) => rest = []
  | .error (.token _) => False
  | .error .atEnd => True
  | .error .depth => True

/-- What a result on some tokens says about the language and about the deep parser on tokens that go
on otherwise. The bound on the depth is met only if it is small for the number of tokens. -/
def Predicts (bound slack : Nat) (deep : Parser α) (language : α → List Terminal → Prop)
    (tokens : List Token) : Result α → Prop
  | .ok (value, []) => language value (terminalsOf tokens)
  | .ok (value, token :: rest) =>
    ∃ taken, tokens = taken ++ token :: rest ∧ language value (terminalsOf taken) ∧
      ∀ later, deep.run (taken ++ token :: later) = .ok (value, token :: later)
  | .error (.token token) =>
    ∃ taken rest, tokens = taken ++ token :: rest ∧
      (∃ value more, language value (terminalsOf taken ++ more)) ∧
      ∀ later, deep.run (taken ++ token :: later) = .error (.token token)
  | .error .atEnd => ∃ value more, language value (terminalsOf tokens ++ more)
  | .error .depth => bound < 8 * tokens.length + slack

variable {bound slack : Nat} {deep : Parser α} {language : α → List Terminal → Prop}
  {tokens : List Token} {result : Result α}

theorem Predicts.weaken {looser : Nat} {larger : α → List Terminal → Prop}
    (predicts : Predicts bound slack deep language tokens result) (le : slack ≤ looser)
    (subset : ∀ value word, language value word → larger value word) :
    Predicts bound looser deep larger tokens result := by
  match result with
  | .ok (_, []) => exact subset _ _ predicts
  | .ok (_, _ :: _) =>
      obtain ⟨taken, split, word, same⟩ := predicts
      exact ⟨taken, split, subset _ _ word, same⟩
  | .error (.token _) =>
      obtain ⟨taken, rest, split, ⟨value, more, word⟩, same⟩ := predicts
      exact ⟨taken, rest, split, ⟨value, more, subset _ _ word⟩, same⟩
  | .error .atEnd =>
      obtain ⟨value, more, word⟩ := predicts
      exact ⟨value, more, subset _ _ word⟩
  | .error .depth => exact Nat.lt_of_lt_of_le predicts (Nat.add_le_add_left le _)

theorem Predicts.spent (predicts : Predicts bound slack deep language [] result) :
    result.Spent := by
  match result with
  | .ok (_, []) => rfl
  | .ok (_, _ :: _) =>
      obtain ⟨taken, split, -⟩ := predicts
      simp at split
  | .error (.token _) =>
      obtain ⟨taken, rest, split, -⟩ := predicts
      simp at split
  | .error .atEnd => trivial
  | .error .depth => trivial

/-- Where all tokens were taken, the deep parser does not matter. -/
theorem Predicts.of_spent (spent : result.Spent)
    (predicts : Predicts bound slack deep language tokens result) :
    Predicts bound slack other language tokens result := by
  match result with
  | .ok (_, []) => exact predicts
  | .ok (_, _ :: _) => cases spent
  | .error (.token _) => exact spent.elim
  | .error .atEnd => exact predicts
  | .error .depth => exact predicts

/-- Only what the deep parser does after the same first token matters. -/
theorem Predicts.of_head {token : Token} {rest : List Token}
    (same : ∀ later, other.run (token :: later) = deep.run (token :: later))
    (predicts : Predicts bound slack deep language (token :: rest) result) :
    Predicts bound slack other language (token :: rest) result := by
  -- Whatever was taken, the tokens start with the first one of the given tokens.
  have agree : ∀ taken (last : Token) others, token :: rest = taken ++ last :: others →
      ∀ later, other.run (taken ++ last :: later) = deep.run (taken ++ last :: later) := by
    intro taken last others split later
    cases taken with
    | nil => cases split; exact same later
    | cons first taken => cases split; exact same _
  match result with
  | .ok (_, []) => exact predicts
  | .ok (_, _ :: _) =>
      obtain ⟨taken, split, word, run⟩ := predicts
      exact ⟨taken, split, word, fun later => (agree taken _ _ split later).trans (run later)⟩
  | .error (.token _) =>
      obtain ⟨taken, rest, split, word, run⟩ := predicts
      exact ⟨taken, rest, split, word, fun later => (agree taken _ _ split later).trans (run later)⟩
  | .error .atEnd => exact predicts
  | .error .depth => exact predicts

/-- A token that the deep parser takes if it stands alone is neither left nor rejected. -/
theorem Predicts.spent_of_lone {token : Token} (lone : Spent (deep.run [token]))
    (predicts : Predicts bound slack deep language [token] result) : result.Spent := by
  match result with
  | .ok (_, []) => rfl
  | .ok (_, _ :: _) =>
      obtain ⟨taken, split, -, same⟩ := predicts
      cases taken with
      | nil =>
          cases split
          rw [← List.nil_append [token], same []] at lone
          cases lone
      | cons => simp at split
  | .error (.token _) =>
      obtain ⟨taken, rest, split, -, same⟩ := predicts
      cases taken with
      | nil =>
          cases split
          rw [← List.nil_append [token], same []] at lone
          exact lone.elim
      | cons => simp at split
  | .error .atEnd => trivial
  | .error .depth => trivial

/-- Only what the deep parser does after the same two tokens matters, if it takes the first one. -/
theorem Predicts.of_two {first second : Token} {rest : List Token}
    (lone : Spent (deep.run [first]))
    (same : ∀ later, other.run (first :: second :: later) = deep.run (first :: second :: later))
    (predicts : Predicts bound slack deep language (first :: second :: rest) result) :
    Predicts bound slack other language (first :: second :: rest) result := by
  have agree : ∀ taken (last : Token) others, first :: second :: rest = taken ++ last :: others →
      taken ≠ [] → ∀ later, other.run (taken ++ last :: later) = deep.run (taken ++ last :: later) := by
    intro taken last others split nonempty later
    match taken with
    | [] => exact absurd rfl nonempty
    | [_] => cases split; exact same later
    | _ :: _ :: _ => cases split; exact same _
  match result with
  | .ok (_, []) => exact predicts
  | .ok (_, _ :: _) =>
      obtain ⟨taken, split, word, run⟩ := predicts
      have nonempty : taken ≠ [] := by
        rintro rfl
        cases split
        rw [← List.nil_append [first], run []] at lone
        cases lone
      exact ⟨taken, split, word, fun later =>
        (agree taken _ _ split nonempty later).trans (run later)⟩
  | .error (.token _) =>
      obtain ⟨taken, rest, split, word, run⟩ := predicts
      have nonempty : taken ≠ [] := by
        rintro rfl
        cases split
        rw [← List.nil_append [first], run []] at lone
        exact lone.elim
      exact ⟨taken, rest, split, word, fun later =>
        (agree taken _ _ split nonempty later).trans (run later)⟩
  | .error .atEnd => exact predicts
  | .error .depth => exact predicts

/-- Some tokens are taken first. -/
theorem Predicts.append (taken : List Token)
    (same : ∀ token rest, tokens = token :: rest → ∀ later,
      other.run (taken ++ token :: later) = deep.run (token :: later))
    (predicts : Predicts bound (slack + 8 * taken.length) deep
      (fun value word => language value (terminalsOf taken ++ word)) tokens result) :
    Predicts bound slack other language (taken ++ tokens) result := by
  have agree : ∀ more (last : Token) others, tokens = more ++ last :: others → ∀ later,
      other.run (taken ++ (more ++ last :: later)) = deep.run (more ++ last :: later) := by
    intro more last others split later
    cases more with
    | nil => exact same _ _ split later
    | cons first more => exact same _ _ split _
  match result with
  | .ok (_, []) =>
      rw [Predicts, terminalsOf, List.map_append]
      exact predicts
  | .ok (_, _ :: _) =>
      obtain ⟨more, split, word, run⟩ := predicts
      refine ⟨taken ++ more, by rw [split, List.append_assoc], ?_, fun later => ?_⟩
      · rw [terminalsOf, List.map_append]
        exact word
      · rw [List.append_assoc]
        exact (agree more _ _ split later).trans (run later)
  | .error (.token _) =>
      obtain ⟨more, rest, split, ⟨value, further, word⟩, run⟩ := predicts
      refine ⟨taken ++ more, rest, by rw [split, List.append_assoc], ⟨value, further, ?_⟩,
        fun later => ?_⟩
      · rw [terminalsOf, List.map_append, List.append_assoc]
        exact word
      · rw [List.append_assoc]
        exact (agree more _ _ split later).trans (run later)
  | .error .atEnd =>
      obtain ⟨value, more, word⟩ := predicts
      refine ⟨value, more, ?_⟩
      rw [terminalsOf, List.map_append, List.append_assoc]
      exact word
  | .error .depth =>
      have short : bound < 8 * tokens.length + (slack + 8 * taken.length) := predicts
      show bound < 8 * (taken ++ tokens).length + slack
      rw [List.length_append]
      omega

theorem Predicts.cons {token : Token}
    (same : ∀ later, other.run (token :: later) = deep.run later)
    (predicts : Predicts bound (slack + 8) deep
      (fun value word => language value (token.terminal :: word)) tokens result) :
    Predicts bound slack other language (token :: tokens) result :=
  Predicts.append [token] (fun _ _ _ _ => same _) predicts

end Result

/-- A parser, in a shallow and a deep version, predicts a language of words with their values. -/
structure Predicts {α : Type} (bound slack : Nat) (shallow deep : Parser α)
    (language : α → List Terminal → Prop) : Prop where
  nonempty : ∃ value word, language value word
  predicts : ∀ tokens, Result.Predicts bound slack deep language tokens (shallow.run tokens)

namespace Predicts

variable {α β : Type} {bound slack : Nat}
variable {shallow deep : Parser α}

theorem weaken {language larger : α → List Terminal → Prop} {looser : Nat}
    (predicts : Predicts bound slack shallow deep language) (le : slack ≤ looser)
    (subset : ∀ value word, language value word → larger value word) :
    Predicts bound looser shallow deep larger := by
  obtain ⟨value, word, known⟩ := predicts.nonempty
  exact ⟨⟨value, word, subset _ _ known⟩, fun tokens => (predicts.predicts tokens).weaken le subset⟩

theorem at_head {whole whole' : Parser α} {language : α → List Terminal → Prop}
    (predicts : Predicts bound slack shallow deep language) {token : Token} {rest : List Token}
    (here : whole.run (token :: rest) = shallow.run (token :: rest))
    (same : ∀ later, whole'.run (token :: later) = deep.run (token :: later)) :
    Result.Predicts bound slack whole' language (token :: rest) (whole.run (token :: rest)) := by
  rw [here]
  exact (predicts.predicts _).of_head same

theorem after_head {whole whole' : Parser α} {language : α → List Terminal → Prop} {token : Token}
    {rest : List Token} (predicts : Predicts bound (slack + 8) shallow deep
      fun value word => language value (token.terminal :: word))
    (here : whole.run (token :: rest) = shallow.run rest)
    (same : ∀ later, whole'.run (token :: later) = deep.run later) :
    Result.Predicts bound slack whole' language (token :: rest) (whole.run (token :: rest)) := by
  rw [here]
  exact (predicts.predicts _).cons same

theorem call {language : α → List Terminal → Prop}
    (predicts : Predicts bound slack shallow deep language) :
    Predicts (bound + 1) (slack + 1) shallow deep language where
  nonempty := predicts.nonempty
  predicts tokens := by
    have here := predicts.predicts tokens
    match run : shallow.run tokens with
    | .ok (_, []) => rw [run] at here; exact here
    | .ok (_, _ :: _) => rw [run] at here; exact here
    | .error (.token _) => rw [run] at here; exact here
    | .error .atEnd => rw [run] at here; exact here
    | .error .depth => rw [run] at here; exact Nat.succ_lt_succ here

theorem spent_nil {language : α → List Terminal → Prop}
    (predicts : Predicts bound slack shallow deep language) : Result.Spent (shallow.run []) :=
  (predicts.predicts []).spent

theorem pure {value : α} {language : α → List Terminal → Prop} (empty : language value []) :
    Predicts bound slack (Pure.pure value) (Pure.pure value) language where
  nonempty := ⟨value, [], empty⟩
  predicts tokens :=
    match tokens with
    | [] => empty
    | _ :: _ => ⟨[], rfl, empty, fun _ => rfl⟩

/-! ## Sequences -/

theorem run_bind (parser : Parser α) (next : α → Parser β) (tokens : List Token) :
    (parser >>= next).run tokens =
      match parser.run tokens with
      | .ok (value, rest) => (next value).run rest
      | .error rejection => .error rejection := by
  rw [StateT.run_bind]
  cases parser.run tokens with
  | ok found => rfl
  | error rejection => rfl

theorem spent_bind {parser : Parser α} {next : α → Parser β} {tokens : List Token}
    (spent : Result.Spent (parser.run tokens))
    (others : ∀ value, Result.Spent ((next value).run [])) :
    Result.Spent ((parser >>= next).run tokens) := by
  rw [run_bind]
  match run : parser.run tokens with
  | .ok (value, rest) =>
      rw [run] at spent
      obtain rfl : rest = [] := spent
      exact others value
  | .error (.token _) =>
      rw [run] at spent
      exact spent
  | .error .atEnd => trivial
  | .error .depth => trivial

/-- What follows a parser reads on in the words that begin with what was taken. -/
theorem bind {next next' : α → Parser β} {first : α → List Terminal → Prop}
    {language : β → List Terminal → Prop} {tight : Nat}
    (predicts : Predicts bound tight shallow deep first) (le : tight ≤ slack)
    (others : ∀ value taken, first value taken →
      Predicts bound (slack + 8 * taken.length) (next value) (next' value)
        fun result word => language result (taken ++ word)) :
    Predicts bound slack (shallow >>= next) (deep >>= next') language where
  nonempty := by
    obtain ⟨value, taken, known⟩ := predicts.nonempty
    obtain ⟨result, word, whole⟩ := (others value taken known).nonempty
    exact ⟨result, taken ++ word, whole⟩
  predicts tokens := by
    have here := (predicts.predicts tokens).weaken le fun _ _ known => known
    rw [run_bind shallow]
    match run : shallow.run tokens with
    | .ok (value, []) =>
        rw [run] at here
        have after := (others value _ here).predicts []
        rw [List.length_map] at after
        rw [← List.append_nil tokens]
        exact Result.Predicts.append tokens (fun _ _ split => nomatch split) after
    | .ok (value, token :: rest) =>
        rw [run] at here
        obtain ⟨taken, rfl, known, same⟩ := here
        have after := (others value _ known).predicts (token :: rest)
        rw [List.length_map] at after
        refine Result.Predicts.append taken (fun _ _ split later => ?_) after
        cases split
        rw [run_bind, same]
    | .error (.token token) =>
        rw [run] at here
        obtain ⟨taken, rest, split, ⟨value, more, known⟩, same⟩ := here
        obtain ⟨result, word, whole⟩ := (others value _ known).nonempty
        refine ⟨taken, rest, split, ⟨result, more ++ word, ?_⟩, fun later => ?_⟩
        · rw [← List.append_assoc]
          exact whole
        · rw [run_bind, same]
    | .error .atEnd =>
        rw [run] at here
        obtain ⟨value, more, known⟩ := here
        obtain ⟨result, word, whole⟩ := (others value _ known).nonempty
        refine ⟨result, more ++ word, ?_⟩
        rw [← List.append_assoc]
        exact whole
    | .error .depth =>
        rw [run] at here
        exact here

/-! ## Tokens -/

variable {language : β → List Terminal → Prop}

theorem run_take? {value : Terminal → Option α} {terminal : Terminal} {loc : Loc}
    {later : List Token} :
    (Parser.take? value).run (⟨terminal, loc⟩ :: later) =
      match value terminal with
      | none => .ok (none, ⟨terminal, loc⟩ :: later)
      | some a => .ok (some (a, loc), later) := by
  unfold Parser.take?
  rw [run_bind]
  change StateT.run (match value terminal with
    | none => Pure.pure none
    | some a => do
      set later
      return some (a, loc)) (⟨terminal, loc⟩ :: later) = _
  cases value terminal with
  | none => rfl
  | some a => rfl

theorem take?_bind {value : Terminal → Option α} {next next' : Option (α × Loc) → Parser β}
    (present : ∀ terminal a loc, value terminal = some a →
      Predicts bound (slack + 8) (next (some (a, loc))) (next' (some (a, loc)))
        fun result word => language result (terminal :: word))
    (absent : Predicts bound slack (next none) (next' none) language) :
    Predicts bound slack (Parser.take? value >>= next) (Parser.take? value >>= next') language where
  nonempty := absent.nonempty
  predicts tokens := by
    match tokens with
    | [] => exact (absent.predicts []).of_spent absent.spent_nil
    | ⟨terminal, loc⟩ :: rest =>
        rw [run_bind, run_take?]
        cases known : value terminal with
        | none =>
            refine (absent.predicts _).of_head fun later => ?_
            rw [run_bind, run_take?, known]
        | some a =>
            refine ((present terminal a loc known).predicts rest).cons fun later => ?_
            rw [run_bind, run_take?, known]

theorem reject_bind {next next' : α → Parser β} (nonempty : ∃ value word, language value word) :
    Predicts bound slack (Parser.reject >>= next) (Parser.reject >>= next') language where
  nonempty := nonempty
  predicts tokens :=
    match tokens with
    | [] => nonempty
    | _ :: rest => ⟨[], rest, rfl, nonempty, fun _ => rfl⟩

/-- A token must be taken. -/
theorem take_bind {value : Terminal → Option α} {next next' : α × Loc → Parser β}
    (possible : ∃ terminal a, value terminal = some a)
    (others : ∀ terminal a loc, value terminal = some a →
      Predicts bound (slack + 8) (next (a, loc)) (next' (a, loc))
        fun result word => language result (terminal :: word)) :
    Predicts bound slack (Parser.take value >>= next) (Parser.take value >>= next') language := by
  obtain ⟨terminal, a, known⟩ := possible
  unfold Parser.take
  rw [bind_assoc, bind_assoc]
  refine take?_bind ?_ ?_
  · intro terminal a loc known
    rw [pure_bind, pure_bind]
    exact others terminal a loc known
  · obtain ⟨result, word, whole⟩ := (others terminal a ⟨0, 0, 0, 0⟩ known).nonempty
    exact reject_bind ⟨result, terminal :: word, whole⟩

theorem mark_bind {mark : Mark} {next next' : Loc → Parser β}
    (others : ∀ loc, Predicts bound (slack + 8) (next loc) (next' loc)
      fun result word => language result (.mark mark :: word)) :
    Predicts bound slack (Parser.mark mark >>= next) (Parser.mark mark >>= next') language := by
  unfold Parser.mark
  simp only [bind_assoc, pure_bind]
  refine take_bind ⟨.mark mark, (), Yields.only_eq_some.mpr rfl⟩ fun terminal a loc known => ?_
  rw [Yields.only_eq_some.mp known]
  exact others loc

theorem keyword_bind {keyword : Keyword} {next next' : Loc → Parser β}
    (others : ∀ loc, Predicts bound (slack + 8) (next loc) (next' loc)
      fun result word => language result (.keyword keyword :: word)) :
    Predicts bound slack (Parser.keyword keyword >>= next) (Parser.keyword keyword >>= next')
      language := by
  unfold Parser.keyword
  simp only [bind_assoc, pure_bind]
  refine take_bind ⟨.keyword keyword, (), Yields.only_eq_some.mpr rfl⟩ fun terminal a loc known => ?_
  rw [Yields.only_eq_some.mp known]
  exact others loc

theorem ident_bind {next next' : Ident → Parser β}
    (others : ∀ x : Ident, Predicts bound (slack + 8) (next x) (next' x)
      fun result word => language result (.name x.name :: word)) :
    Predicts bound slack (Parser.ident >>= next) (Parser.ident >>= next') language := by
  unfold Parser.ident
  simp only [bind_assoc, pure_bind]
  refine take_bind ⟨.name "", "", rfl⟩ fun terminal text loc known => ?_
  rw [Yields.nameText_eq_some.mp known]
  exact others ⟨text, loc⟩

theorem ident?_bind {next next' : Option Ident → Parser β}
    (present : ∀ x : Ident, Predicts bound (slack + 8) (next (some x)) (next' (some x))
      fun result word => language result (.name x.name :: word))
    (absent : Predicts bound slack (next none) (next' none) language) :
    Predicts bound slack (Parser.ident? >>= next) (Parser.ident? >>= next') language := by
  unfold Parser.ident?
  simp only [bind_assoc, pure_bind]
  refine take?_bind (fun terminal text loc known => ?_) absent
  rw [Yields.nameText_eq_some.mp known]
  exact present ⟨text, loc⟩

theorem mark?_bind {mark : Mark} {next next' : Bool → Parser β}
    (present : Predicts bound (slack + 8) (next true) (next' true)
      fun result word => language result (.mark mark :: word))
    (absent : Predicts bound slack (next false) (next' false) language) :
    Predicts bound slack (Parser.mark? mark >>= next) (Parser.mark? mark >>= next') language := by
  unfold Parser.mark?
  simp only [bind_assoc, pure_bind]
  refine take?_bind (fun terminal a loc known => ?_) absent
  rw [Yields.only_eq_some.mp known]
  exact present

theorem keyword?_bind {keyword : Keyword} {next next' : Bool → Parser β}
    (present : Predicts bound (slack + 8) (next true) (next' true)
      fun result word => language result (.keyword keyword :: word))
    (absent : Predicts bound slack (next false) (next' false) language) :
    Predicts bound slack (Parser.keyword? keyword >>= next) (Parser.keyword? keyword >>= next')
      language := by
  unfold Parser.keyword?
  simp only [bind_assoc, pure_bind]
  refine take?_bind (fun terminal a loc known => ?_) absent
  rw [Yields.only_eq_some.mp known]
  exact present

/-- A choice by the next token needs both ways to stay within the language. -/
theorem peek?_bind {next next' : Option Terminal → Parser β}
    (others : ∀ terminal, Predicts bound slack (next terminal) (next' terminal) language) :
    Predicts bound slack (Parser.peek? >>= next) (Parser.peek? >>= next') language where
  nonempty := (others none).nonempty
  predicts tokens := by
    match tokens with
    | [] => exact ((others none).predicts []).of_spent (others none).spent_nil
    | token :: rest =>
        have after := (others (some token.terminal)).predicts (token :: rest)
        refine Result.Predicts.of_head (fun later => ?_) after
        rfl

theorem atMark_bind {mark : Mark} {next next' : Bool → Parser β}
    (others : ∀ found, Predicts bound slack (next found) (next' found) language) :
    Predicts bound slack (Parser.atMark mark >>= next) (Parser.atMark mark >>= next') language := by
  unfold Parser.atMark
  simp only [bind_assoc, pure_bind]
  exact peek?_bind fun terminal => others _

end Predicts

end Parser

end LoopCapture.Concrete
