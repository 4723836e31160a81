import LoopCapture.Proofs.Concrete.Shape
import LoopCapture.Proofs.Concrete.SpelledTerminals
import LoopCapture.Proofs.Concrete.Soundness

/-!
# Names of programs

The names of the identifiers of a tree, and the tokens that a program was read from. A name token is
never spelled like a reserved word.
-/

set_option autoImplicit false

namespace LoopCapture

namespace Outline

/-- The name that a form carries if it is an identifier. -/
def formName : Form → List String
  | .identifier name => [name]
  | _ => []

mutual

/-- The names of the identifiers of a tree in pre-order. -/
def names : Tree Label → List String
  | .node label children => formName label.form ++ namesAll children

def namesAll : List (Tree Label) → List String
  | [] => []
  | tree :: rest => names tree ++ namesAll rest

end

attribute [simp] names namesAll

@[simp]
theorem namesAll_append (trees rest : List (Tree Label)) :
    namesAll (trees ++ rest) = namesAll trees ++ namesAll rest := by
  induction trees with
  | nil => rfl
  | cons tree trees ih => simp [ih]

@[simp]
theorem names_ident (slot : Slot) (x : Ident) : names (ident slot x) = [x.name] := by
  simp [ident, leaf, formName]

@[simp]
theorem namesAll_params (xs : List Ident) : namesAll (params xs) = xs.map Ident.name := by
  induction xs with
  | nil => rfl
  | cons x xs ih =>
      simp only [params] at ih
      simp [params, ih]

mutual

theorem names_eq : ∀ tree : Tree Label,
    names tree = tree.preorder.flatMap fun label => formName label.form
  | .node label children => by simp [Tree.preorder, namesAll_eq children]

theorem namesAll_eq : ∀ trees : List (Tree Label),
    namesAll trees = (Tree.preorderAll trees).flatMap fun label => formName label.form
  | [] => rfl
  | tree :: rest => by simp [Tree.preorderAll, names_eq tree, namesAll_eq rest]

end

theorem exists_label_of_mem_names {name : String} {trees : List (Tree Label)}
    (used : name ∈ namesAll trees) :
    ∃ label ∈ Tree.preorderAll trees, label.form = .identifier name := by
  rw [namesAll_eq] at used
  obtain ⟨label, member, named⟩ := List.mem_flatMap.mp used
  refine ⟨label, member, ?_⟩
  unfold formName at named
  split at named
  · rename_i text form
    rw [form, List.mem_singleton.mp named]
  · cases named

end Outline

/-! ## Reserved words -/

namespace Lexer

/-- A terminal is no name that is spelled like a reserved word. -/
def Unreserved (terminal : Terminal) : Prop :=
  ∀ text, terminal = .name text → Keyword.ofText? text = none

theorem unreserved_word (text : String) : Unreserved (wordTerminal text) := by
  intro other same
  unfold wordTerminal at same
  split at same
  · cases same
  · cases same
    assumption

theorem unreserved_piece {c : Char} {rest : List Char} {terminal : Terminal} {length : Nat}
    (found : piece? c rest = some (.terminal terminal length)) : Unreserved terminal := by
  have main : terminalPiece? c rest = some (.terminal terminal length) → Unreserved terminal := by
    intro found
    unfold terminalPiece? at found
    dsimp only at found
    split at found
    · cases found
      exact unreserved_word _
    split at found
    · cases found
      exact nofun
    split at found
    · obtain ⟨_, -, same⟩ := Option.map_eq_some_iff.mp found
      cases same
      exact nofun
    · obtain ⟨_, -, same⟩ := Option.map_eq_some_iff.mp found
      cases same
      exact nofun
  unfold piece? at found
  split at found
  · cases found
  split at found
  · cases found
  · split at found
    · cases found
    · exact main found
  · exact main found

theorem unreserved_scan (rounds : Nat) (here : Cursor) (text : List Char) :
    ∀ token ∈ (scan rounds here text).tokens, Unreserved token.terminal := by
  induction rounds generalizing here text with
  | zero => simp [scan]
  | succ rounds ih =>
      cases text with
      | nil => simp [scan]
      | cons c rest =>
          unfold scan
          split
          · simp
          · rename_i piece found
            dsimp only
            split
            · exact ih _ _
            · rename_i terminal length
              simp only [List.forall_mem_cons]
              exact ⟨unreserved_piece found, ih _ _⟩

end Lexer

namespace Program

/-- The tokens that the concrete statements of a text were read from. -/
theorem concrete_eq_ok {tokens : Tokens} {trees : List Concrete.Stmt}
    (accepted : concrete tokens = .ok trees) :
    tokens.stray = none ∧ Concrete.stmtsSpell trees tokens.tokens [] ∧
      Concrete.stmtsWellFormed trees := by
  unfold concrete at accepted
  split at accepted
  · cases accepted
  · cases accepted
  rename_i found ran clean
  cases accepted
  exact ⟨clean, Concrete.parse_sound ran⟩

/-- The parts that a program text was read through. -/
theorem ofText_eq_ok {source : List Char} {program : Program}
    (parsed : ofText source = .ok program) :
    ∃ tokens trees,
      Tokens.ofText source = ⟨tokens, none⟩ ∧
      Concrete.stmtsSpell trees tokens [] ∧ Concrete.stmtsWellFormed trees ∧
      Build.stmts trees = .ok program.body ∧ program.loc = ⟨1, 1, 0, source.length⟩ := by
  unfold ofText at parsed
  split at parsed
  · cases parsed
  rename_i trees accepted
  obtain ⟨body, built, done⟩ := Build.bind_eq_ok.mp parsed
  obtain rfl := Build.pure_eq_ok.mp done
  obtain ⟨clean, spelled, formed⟩ := concrete_eq_ok accepted
  refine ⟨(Tokens.ofText source).tokens, trees, ?_, spelled, formed, built, rfl⟩
  rw [← clean]

theorem exists_of_any {source : List Char} {test : Program → Bool}
    (checked : (ofText source).toOption.any test = true) :
    ∃ program, ofText source = .ok program ∧ test program = true := by
  cases parsed : ofText source with
  | ok program =>
      rw [parsed] at checked
      exact ⟨program, rfl, checked⟩
  | error error =>
      rw [parsed] at checked
      cases checked

/-- Why there is no program for a text, if there is none. -/
def fault? (source : List Char) : Option BuildError :=
  match ofText source with
  | .ok _ => none
  | .error fault => some fault

theorem eq_error_of_fault? {source : List Char} {fault : BuildError}
    (failed : fault? source = some fault) : ofText source = .error fault := by
  unfold fault? at failed
  split at failed
  · cases failed
  · rename_i failing
    rw [failing, Option.some.inj failed]

end Program

end LoopCapture
