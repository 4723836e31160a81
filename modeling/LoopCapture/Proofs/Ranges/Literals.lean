import LoopCapture.Proofs.Concrete.Anchors
import LoopCapture.Proofs.Concrete.Spelling

/-!
# Literals of a program

The literals of a program, with their ranges and spellings, are the literal tokens of its text in
their order.
-/

set_option autoImplicit false

namespace LoopCapture

def literalsOf (tokens : List Token) : List (Loc × String) :=
  (tokens.filter (·.terminal.isLiteral)).map fun token => (token.loc, token.terminal.text)

mutual

@[simp] def Place.literals : Place → List (Loc × String)
  | .ident _ => []
  | .member _ object _ => object.literals
  | .index _ object key => object.literals ++ key.literals

@[simp] def Expr.literals : Expr → List (Loc × String)
  | .place place => place.literals
  | .literal loc _ spelling => [(loc, spelling)]
  | .this _ => []
  | .array _ items => exprsLiterals items
  | .function _ _ body => body.literals
  | .arrow _ _ body => body.literals
  | .call _ callee args => callee.literals ++ exprsLiterals args
  | .assign _ _ target value => target.literals ++ value.literals
  | .update _ _ _ target => target.literals
  | .binary _ _ left right => left.literals ++ right.literals
  | .logical _ _ left right => left.literals ++ right.literals
  | .unary _ _ operand => operand.literals
  | .conditional _ test yes no => test.literals ++ yes.literals ++ no.literals
  | .sequence _ items => exprsLiterals items

@[simp] def exprsLiterals : List Expr → List (Loc × String)
  | [] => []
  | first :: rest => first.literals ++ exprsLiterals rest

@[simp] def exprOptionLiterals : Option Expr → List (Loc × String)
  | none => []
  | some value => value.literals

@[simp] def ArrowBody.literals : ArrowBody → List (Loc × String)
  | .block body => body.literals
  | .expr value => value.literals

@[simp] def Block.literals : Block → List (Loc × String)
  | .mk _ body => stmtsLiterals body

@[simp] def blockOptionLiterals : Option Block → List (Loc × String)
  | none => []
  | some body => body.literals

@[simp] def declaratorsLiterals : List Declarator → List (Loc × String)
  | [] => []
  | .mk _ _ init :: rest => exprOptionLiterals init ++ declaratorsLiterals rest

@[simp] def Declaration.literals : Declaration → List (Loc × String)
  | .mk _ _ items => declaratorsLiterals items

@[simp] def forInitLiterals : Option ForInit → List (Loc × String)
  | none => []
  | some (.declaration item) => item.literals
  | some (.expr value) => value.literals

@[simp] def handlerLiterals : Option CatchClause → List (Loc × String)
  | none => []
  | some (.mk _ _ body) => body.literals

@[simp] def casesLiterals : List Case → List (Loc × String)
  | [] => []
  | .mk _ test body :: rest =>
    exprOptionLiterals test ++ stmtsLiterals body ++ casesLiterals rest

@[simp] def Stmt.literals : Stmt → List (Loc × String)
  | .declaration item => item.literals
  | .function _ _ _ body => body.literals
  | .block body => body.literals
  | .expr _ value => value.literals
  | .empty _ => []
  | .ifElse _ test yes no => test.literals ++ yes.literals ++ stmtOptionLiterals no
  | .forLoop _ init test update body =>
    forInitLiterals init ++ exprOptionLiterals test ++ exprOptionLiterals update ++ body.literals
  | .forEach _ _ _ subject body => subject.literals ++ body.literals
  | .whileLoop _ test body => test.literals ++ body.literals
  | .doWhile _ body test => body.literals ++ test.literals
  | .returns _ value => exprOptionLiterals value
  | .breaks _ _ => []
  | .continues _ _ => []
  | .throws _ value => value.literals
  | .tryCatch _ body handler finalizer =>
    body.literals ++ handlerLiterals handler ++ blockOptionLiterals finalizer
  | .switch _ subject cases => subject.literals ++ casesLiterals cases
  | .labeled _ _ body => body.literals

@[simp] def stmtOptionLiterals : Option Stmt → List (Loc × String)
  | none => []
  | some body => body.literals

@[simp] def stmtsLiterals : List Stmt → List (Loc × String)
  | [] => []
  | first :: rest => first.literals ++ stmtsLiterals rest

end

def Program.literals (program : Program) : List (Loc × String) := stmtsLiterals program.body

/-! ## Tokens -/

@[simp]
theorem literalsOf_nil : literalsOf [] = [] := rfl

@[simp]
theorem literalsOf_mark (mark : Mark) (loc : Loc) (rest : List Token) :
    literalsOf (⟨.mark mark, loc⟩ :: rest) = literalsOf rest := rfl

@[simp]
theorem literalsOf_name (name : String) (loc : Loc) (rest : List Token) :
    literalsOf (⟨.name name, loc⟩ :: rest) = literalsOf rest := rfl

@[simp]
theorem literalsOf_keyword {word : Keyword}
    (other : word ≠ .true ∧ word ≠ .false ∧ word ≠ .null) (loc : Loc) (rest : List Token) :
    literalsOf (⟨.keyword word, loc⟩ :: rest) = literalsOf rest := by
  cases word <;> first | rfl | simp at other

theorem literalsOf_literal {terminal : Terminal} (literal : terminal.isLiteral = true) (loc : Loc)
    (rest : List Token) :
    literalsOf (⟨terminal, loc⟩ :: rest) = (loc, terminal.text) :: literalsOf rest := by
  simp [literalsOf, literal]

theorem mem_literalsOf {tokens : List Token} {loc : Loc} {spelling : String}
    (member : (loc, spelling) ∈ literalsOf tokens) :
    ∃ token ∈ tokens, token.loc = loc ∧ token.terminal.text = spelling := by
  obtain ⟨token, filtered, same⟩ := List.mem_map.mp member
  obtain ⟨rfl, rfl⟩ := Prod.mk.inj same
  exact ⟨token, (List.mem_filter.mp filtered).1, rfl, rfl⟩

theorem exprsLiterals_append (items more : List Expr) :
    exprsLiterals (items ++ more) = exprsLiterals items ++ exprsLiterals more := by
  induction items with
  | nil => rfl
  | cons first rest ih =>
      simp [ih]

namespace Concrete

theorem literalsOf_names {tokens rest : List Token} : ∀ {names : List Ident},
    namesSpell names tokens rest → literalsOf tokens = literalsOf rest
  | [], spelled => by
      obtain rfl : tokens = rest := spelled
      rfl
  | x :: more, spelled => by
      unfold namesSpell at spelled
      split at spelled
      · obtain rfl : tokens = _ := spelled
        rfl
      · obtain ⟨comma, between, rfl, others⟩ := spelled
        rw [literalsOf_name, literalsOf_mark, literalsOf_names others]

theorem literalsOf_label {label : Option Ident} {tokens rest : List Token}
    (spelled : labelSpells label tokens rest) : literalsOf tokens = literalsOf rest := by
  cases label with
  | none => exact congrArg literalsOf spelled
  | some x =>
      obtain rfl : tokens = _ := spelled
      rfl

theorem literalsOf_target {target : ForTarget} {tokens rest : List Token}
    (spelled : targetSpells target tokens rest) : literalsOf tokens = literalsOf rest := by
  cases target with
  | existing x =>
      obtain rfl : tokens = _ := spelled
      rfl
  | declared loc kind x =>
      obtain ⟨first, rfl, -⟩ := spelled
      cases kind <;> rfl

end Concrete

namespace Build

open Concrete

theorem literals_plainNames {items : List Expr} {names : List Ident}
    (built : plainNames items = .ok names) : exprsLiterals items = [] := by
  induction items generalizing names with
  | nil => rfl
  | cons first rest ih =>
      match first with
      | .place (.ident x) =>
          obtain ⟨others, othersBuilt, -⟩ := bind_eq_ok.mp built
          exact ih othersBuilt

theorem literals_sequenceItems (value : Expr) :
    exprsLiterals (sequenceItems value) = value.literals := by
  unfold sequenceItems
  split
  · rfl
  · simp

theorem literals_arrowParams {value : Expr} {names : List Ident}
    (built : arrowParams value = .ok names) : value.literals = [] := by
  rw [arrowParams_eq] at built
  rw [← literals_sequenceItems]
  exact literals_plainNames built

mutual

/-- By induction on the tree: what it takes off the front of the tokens are its own literals. -/
theorem literals_expr {value : Expr} {tokens rest : List Token} : ∀ {tree : Concrete.Expr},
    expr tree = .ok value → tree.Spells tokens rest →
    literalsOf tokens = value.literals ++ literalsOf rest
  | .name x, built, spelled => by
      obtain rfl := ok_eq_ok.mp built
      obtain rfl : tokens = _ := spelled
      rfl
  | .number loc text, built, spelled => by
      obtain ⟨literal, -, rfl⟩ := one_eq_ok.mp built
      obtain rfl : tokens = _ := spelled
      exact literalsOf_literal rfl loc rest
  | .string loc text, built, spelled => by
      obtain ⟨literal, -, rfl⟩ := one_eq_ok.mp built
      obtain rfl : tokens = _ := spelled
      exact literalsOf_literal rfl loc rest
  | .constant loc word, built, spelled => by
      obtain rfl := ok_eq_ok.mp built
      obtain rfl : tokens = _ := spelled
      cases word with
      | this => exact literalsOf_keyword (by simp [Constant.keyword]) loc rest
      | _ => exact literalsOf_literal rfl loc rest
  | .array loc items, built, spelled => by
      obtain ⟨found, itemsBuilt, rfl⟩ := one_eq_ok.mp built
      obtain ⟨first, last, inner, rfl, itemsSpelled, -⟩ := spelled
      simp [literals_exprs itemsBuilt itemsSpelled]
  | .function loc names body, built, spelled => by
      obtain ⟨found, -, block, blockBuilt, rfl⟩ := two_eq_ok.mp built
      obtain ⟨first, opened, closed, inner, after, rfl, named, bodySpelled, -⟩ := spelled
      simp [literalsOf_names named, literals_block blockBuilt bodySpelled]
  | .group loc inner, built, spelled => by
      have innerBuilt : expr inner = .ok value := built
      obtain ⟨first, last, between, rfl, innerSpelled, -⟩ := spelled
      simp [literals_expr innerBuilt innerSpelled]
  | .arrow loc head body, built, spelled => by
      obtain ⟨names, headBuilt, found, -, inner, bodyBuilt, rfl⟩ := three_eq_ok.mp built
      obtain ⟨start, arrow, after, headSpelled, bodySpelled, -⟩ := spelled
      simp [literals_arrowHead headBuilt headSpelled, literals_arrowBody bodyBuilt bodySpelled]
  | .sequence loc left right, built, spelled => by
      obtain ⟨first, leftBuilt, last, rightBuilt, rfl⟩ := two_eq_ok.mp built
      obtain ⟨comma, between, leftSpelled, rightSpelled, -⟩ := spelled
      simp [exprsLiterals_append, literals_sequenceItems, literals_expr leftBuilt leftSpelled,
        literals_expr rightBuilt rightSpelled]
  | .assign loc op left right, built, spelled => by
      obtain ⟨first, leftBuilt, place, placeBuilt, last, rightBuilt, rfl⟩ := three_eq_ok.mp built
      obtain rfl := target_eq_ok placeBuilt
      obtain ⟨sign, between, leftSpelled, rightSpelled, -⟩ := spelled
      simp [literals_expr leftBuilt leftSpelled, literals_expr rightBuilt rightSpelled]
  | .conditional loc test yes no, built, spelled => by
      obtain ⟨first, testBuilt, second, yesBuilt, third, noBuilt, rfl⟩ := three_eq_ok.mp built
      obtain ⟨question, colon, between, after, testSpelled, yesSpelled, noSpelled, -⟩ := spelled
      simp [literals_expr testBuilt testSpelled, literals_expr yesBuilt yesSpelled, literals_expr
        noBuilt noSpelled]
  | .operation loc op left right, built, spelled => by
      obtain ⟨first, leftBuilt, last, rightBuilt, rfl⟩ := two_eq_ok.mp built
      obtain ⟨sign, between, leftSpelled, rightSpelled, -⟩ := spelled
      have both : (operation loc op first last).literals = first.literals ++ last.literals := by
        cases op <;> rfl
      simp [both, literals_expr leftBuilt leftSpelled, literals_expr rightBuilt rightSpelled]
  | .unary loc op operand, built, spelled => by
      obtain ⟨inner, innerBuilt, rfl⟩ := one_eq_ok.mp built
      obtain ⟨sign, between, rfl, operandSpelled, -⟩ := spelled
      cases op <;> simp [unaryTerminal, literals_expr innerBuilt operandSpelled]
  | .update loc op true operand, built, spelled => by
      obtain ⟨inner, innerBuilt, place, placeBuilt, rfl⟩ := two_eq_ok.mp built
      obtain rfl := target_eq_ok placeBuilt
      obtain ⟨sign, between, rfl, operandSpelled, -⟩ := spelled
      simp [literals_expr innerBuilt operandSpelled]
  | .update loc op false operand, built, spelled => by
      obtain ⟨inner, innerBuilt, place, placeBuilt, rfl⟩ := two_eq_ok.mp built
      obtain rfl := target_eq_ok placeBuilt
      obtain ⟨sign, operandSpelled, -⟩ := spelled
      simp [literals_expr innerBuilt operandSpelled]
  | .call loc callee args, built, spelled => by
      obtain ⟨items, argsBuilt, function, calleeBuilt, rfl⟩ := two_eq_ok.mp built
      obtain ⟨opened, last, between, calleeSpelled, argsSpelled, -⟩ := spelled
      simp [literals_expr calleeBuilt calleeSpelled, literals_exprs argsBuilt argsSpelled]
  | .member loc object property, built, spelled => by
      obtain ⟨inner, innerBuilt, rfl⟩ := one_eq_ok.mp built
      obtain ⟨dot, between, objectSpelled, rfl, -⟩ := spelled
      simp [literals_expr innerBuilt objectSpelled]
  | .index loc object key, built, spelled => by
      obtain ⟨inner, innerBuilt, last, keyBuilt, rfl⟩ := two_eq_ok.mp built
      obtain ⟨opened, closed, between, objectSpelled, keySpelled, -⟩ := spelled
      simp [literals_expr innerBuilt objectSpelled, literals_expr keyBuilt keySpelled]

theorem literals_exprs {items : List Expr} {tokens rest : List Token} :
    ∀ {trees : List Concrete.Expr}, exprs trees = .ok items → exprsSpell trees tokens rest →
    literalsOf tokens = exprsLiterals items ++ literalsOf rest
  | [], built, spelled => by
      obtain rfl := ok_eq_ok.mp built
      exact congrArg literalsOf spelled
  | first :: more, built, spelled => by
      obtain ⟨value, valueBuilt, others, othersBuilt, rfl⟩ := two_eq_ok.mp built
      cases more with
      | nil =>
          obtain rfl := ok_eq_ok.mp othersBuilt
          have firstSpelled : first.Spells tokens rest := spelled
          simp [literals_expr valueBuilt firstSpelled]
      | cons second more =>
          obtain ⟨comma, between, firstSpelled, othersSpelled⟩ := spelled
          simp [literals_expr valueBuilt firstSpelled, literals_exprs othersBuilt othersSpelled]

theorem literals_exprOption {value : Option Expr} {tokens rest : List Token} :
    ∀ {tree : Option Concrete.Expr}, exprOption tree = .ok value →
    exprOptionSpells tree tokens rest →
    literalsOf tokens = exprOptionLiterals value ++ literalsOf rest
  | none, built, spelled => by
      obtain rfl := ok_eq_ok.mp built
      exact congrArg literalsOf spelled
  | some tree, built, spelled => by
      obtain ⟨inner, innerBuilt, rfl⟩ := one_eq_ok.mp built
      exact literals_expr innerBuilt spelled

theorem literals_arrowHead {names : List Ident} {start : Loc} {tokens rest : List Token} :
    ∀ {head : ArrowHead}, arrowHead head = .ok names → head.Spells start tokens rest →
    literalsOf tokens = literalsOf rest
  | .empty, built, spelled => by
      obtain ⟨closed, rfl⟩ := spelled
      rfl
  | .name x, built, spelled => by
      obtain ⟨rfl, -⟩ := spelled
      rfl
  | .group inner, built, spelled => by
      obtain ⟨value, valueBuilt, done⟩ := bind_eq_ok.mp built
      obtain ⟨closed, between, rfl, innerSpelled⟩ := spelled
      simp [literals_expr valueBuilt innerSpelled, literals_arrowParams done]

theorem literals_arrowBody {body : ArrowBody} {tokens rest : List Token} :
    ∀ {tree : Concrete.ArrowBody}, arrowBody tree = .ok body → tree.Spells tokens rest →
    literalsOf tokens = body.literals ++ literalsOf rest
  | .block tree, built, spelled => by
      obtain ⟨inner, innerBuilt, rfl⟩ := one_eq_ok.mp built
      exact literals_block innerBuilt spelled
  | .expr tree, built, spelled => by
      obtain ⟨inner, innerBuilt, rfl⟩ := one_eq_ok.mp built
      exact literals_expr innerBuilt spelled

theorem literals_block {body : Block} {tokens rest : List Token} : ∀ {tree : Concrete.Block},
    block tree = .ok body → tree.Spells tokens rest →
    literalsOf tokens = body.literals ++ literalsOf rest
  | .mk loc trees, built, spelled => by
      obtain ⟨inner, innerBuilt, rfl⟩ := one_eq_ok.mp built
      obtain ⟨first, last, between, rfl, treesSpelled, -⟩ := spelled
      simp [literals_stmts innerBuilt treesSpelled]

theorem literals_declarators (kind : DeclKind) {items : List Declarator}
    {tokens rest : List Token} : ∀ {trees : List Concrete.Declarator},
    declarators kind trees = .ok items →
    declaratorsSpell trees tokens rest →
    literalsOf tokens = declaratorsLiterals items ++ literalsOf rest
  | [], built, spelled => by
      obtain rfl := ok_eq_ok.mp built
      exact congrArg literalsOf spelled
  | .mk loc x init :: more, built, spelled => by
      obtain ⟨value, valueBuilt, -, -, others, othersBuilt, rfl⟩ := three_eq_ok.mp built
      obtain ⟨between, rfl, othersSpelled⟩ := spelled
      cases more with
      | nil =>
          obtain rfl := ok_eq_ok.mp othersBuilt
          simp [literals_init valueBuilt othersSpelled]
      | cons second more =>
          obtain ⟨comma, after, initSpelled, othersSpelled⟩ := othersSpelled
          simp [literals_init valueBuilt initSpelled, literals_declarators kind othersBuilt
        othersSpelled]

theorem literals_init {x : Ident} {loc : Loc} {value : Option Expr} {tokens rest : List Token} :
    ∀ {tree : Option Concrete.Expr}, exprOption tree = .ok value →
    initSpells x loc tree tokens rest →
    literalsOf tokens = exprOptionLiterals value ++ literalsOf rest
  | none, built, spelled => by
      obtain rfl := ok_eq_ok.mp built
      exact congrArg literalsOf spelled.1
  | some tree, built, spelled => by
      obtain ⟨inner, innerBuilt, rfl⟩ := one_eq_ok.mp built
      obtain ⟨sign, between, rfl, valueSpelled, -⟩ := spelled
      simp [literals_expr innerBuilt valueSpelled]

theorem literals_declaration (loc : Loc) {item : Declaration} {tokens rest : List Token} :
    ∀ {tree : Concrete.Declaration}, declaration loc tree = .ok item → tree.Spells tokens rest →
    literalsOf tokens = item.literals ++ literalsOf rest
  | .mk _ kind trees, built, spelled => by
      obtain ⟨items, itemsBuilt, rfl⟩ := one_eq_ok.mp built
      obtain ⟨first, between, rfl, treesSpelled, -⟩ := spelled
      have inner := literals_declarators kind itemsBuilt treesSpelled
      cases kind <;> simp [declKeyword, inner]

theorem literals_forInit {init : Option ForInit} {tokens rest : List Token} :
    ∀ {tree : Option Concrete.ForInit}, forInit tree = .ok init → forInitSpells tree tokens rest →
    literalsOf tokens = forInitLiterals init ++ literalsOf rest
  | none, built, spelled => by
      obtain rfl := ok_eq_ok.mp built
      exact congrArg literalsOf spelled
  | some (.declaration tree), built, spelled => by
      obtain ⟨item, itemBuilt, rfl⟩ := one_eq_ok.mp built
      exact literals_declaration tree.loc itemBuilt spelled
  | some (.expr tree), built, spelled => by
      obtain ⟨value, valueBuilt, rfl⟩ := one_eq_ok.mp built
      exact literals_expr valueBuilt spelled

theorem literals_handler {clause : Option CatchClause} {tokens rest : List Token} :
    ∀ {tree : Option Concrete.CatchClause},
    handler tree = .ok clause → handlerSpells tree tokens rest →
    literalsOf tokens = handlerLiterals clause ++ literalsOf rest
  | none, built, spelled => by
      obtain rfl := ok_eq_ok.mp built
      exact congrArg literalsOf spelled
  | some (.mk loc param tree), built, spelled => by
      obtain ⟨body, bodyBuilt, rfl⟩ := one_eq_ok.mp built
      obtain ⟨first, opened, closed, after, rfl, treeSpelled, -⟩ := spelled
      simp [literals_block bodyBuilt treeSpelled]

theorem literals_finalizer {body : Option Block} {tokens rest : List Token} :
    ∀ {tree : Option Concrete.Block}, blockOption tree = .ok body →
    finalizerSpells tree tokens rest →
    literalsOf tokens = blockOptionLiterals body ++ literalsOf rest
  | none, built, spelled => by
      obtain rfl := ok_eq_ok.mp built
      exact congrArg literalsOf spelled
  | some tree, built, spelled => by
      obtain ⟨inner, innerBuilt, rfl⟩ := one_eq_ok.mp built
      obtain ⟨word, between, rfl, treeSpelled⟩ := spelled
      simp [literals_block innerBuilt treeSpelled]

theorem literals_cases {items : List Case} {tokens rest : List Token} :
    ∀ {trees : List Concrete.Case}, cases trees = .ok items → casesSpell trees tokens rest →
    literalsOf tokens = casesLiterals items ++ literalsOf rest
  | [], built, spelled => by
      obtain rfl := ok_eq_ok.mp built
      exact congrArg literalsOf spelled
  | .mk loc test tree :: more, built, spelled => by
      obtain ⟨value, valueBuilt, body, bodyBuilt, others, othersBuilt, rfl⟩ := three_eq_ok.mp built
      obtain ⟨first, colon, between, after, testSpelled, treeSpelled, othersSpelled, -⟩ := spelled
      simp [literals_test valueBuilt testSpelled, literals_stmts bodyBuilt treeSpelled,
        literals_cases othersBuilt othersSpelled]

theorem literals_test {first : Loc} {value : Option Expr} {tokens rest : List Token} :
    ∀ {tree : Option Concrete.Expr}, exprOption tree = .ok value →
    testSpells first tree tokens rest →
    literalsOf tokens = exprOptionLiterals value ++ literalsOf rest
  | none, built, spelled => by
      obtain rfl := ok_eq_ok.mp built
      obtain rfl : tokens = _ := spelled
      rfl
  | some tree, built, spelled => by
      obtain ⟨inner, innerBuilt, rfl⟩ := one_eq_ok.mp built
      obtain ⟨between, rfl, treeSpelled⟩ := spelled
      simp [literals_expr innerBuilt treeSpelled]

theorem literals_stmt {body : Stmt} {tokens rest : List Token} : ∀ {tree : Concrete.Stmt},
    stmt tree = .ok body → tree.Spells tokens rest →
    literalsOf tokens = body.literals ++ literalsOf rest
  | .declaration loc tree, built, spelled => by
      obtain ⟨item, itemBuilt, rfl⟩ := one_eq_ok.mp built
      obtain ⟨last, treeSpelled, -⟩ := spelled
      simp [literals_declaration loc itemBuilt treeSpelled]
  | .function loc name names tree, built, spelled => by
      obtain ⟨found, -, block, blockBuilt, rfl⟩ := two_eq_ok.mp built
      obtain ⟨first, opened, closed, inner, after, rfl, named, treeSpelled, -⟩ := spelled
      simp [literalsOf_names named, literals_block blockBuilt treeSpelled]
  | .block tree, built, spelled => by
      obtain ⟨inner, innerBuilt, rfl⟩ := one_eq_ok.mp built
      exact literals_block innerBuilt spelled
  | .ifElse loc test yes no, built, spelled => by
      obtain ⟨first, testBuilt, second, yesBuilt, third, noBuilt, rfl⟩ := three_eq_ok.mp built
      obtain ⟨word, opened, closed, inner, after, between, rfl, testSpelled, yesSpelled, noSpelled,
        -⟩ := spelled
      simp [literals_expr testBuilt testSpelled, literals_stmt yesBuilt yesSpelled, literals_else
        noBuilt noSpelled]
  | .forLoop loc init test update tree, built, spelled => by
      obtain ⟨first, initBuilt, step⟩ := bind_eq_ok.mp built
      obtain ⟨second, testBuilt, third, updateBuilt, last, treeBuilt, rfl⟩ := three_eq_ok.mp step
      obtain ⟨word, opened, one, two, closed, start, middle, ending, after, rfl, initSpelled,
        testSpelled, updateSpelled, treeSpelled, -⟩ := spelled
      simp [literals_forInit initBuilt initSpelled, literals_exprOption testBuilt testSpelled,
        literals_exprOption updateBuilt updateSpelled, literals_stmt treeBuilt treeSpelled]
  | .forEach loc kind target subject tree, built, spelled => by
      obtain ⟨first, subjectBuilt, last, treeBuilt, rfl⟩ := two_eq_ok.mp built
      obtain ⟨word, opened, each, closed, start, middle, after, rfl, targetSpelled, subjectSpelled,
        treeSpelled, -⟩ := spelled
      cases kind <;> simp [eachKeyword, literalsOf_target targetSpelled,
        literals_expr subjectBuilt subjectSpelled, literals_stmt treeBuilt treeSpelled]
  | .whileLoop loc test tree, built, spelled => by
      obtain ⟨first, testBuilt, last, treeBuilt, rfl⟩ := two_eq_ok.mp built
      obtain ⟨word, opened, closed, inner, after, rfl, testSpelled, treeSpelled, -⟩ := spelled
      simp [literals_expr testBuilt testSpelled, literals_stmt treeBuilt treeSpelled]
  | .doWhile loc tree test, built, spelled => by
      obtain ⟨first, treeBuilt, last, testBuilt, rfl⟩ := two_eq_ok.mp built
      obtain ⟨word, again, opened, closed, ending, inner, after, rfl, treeSpelled, testSpelled,
        -⟩ := spelled
      simp [literals_stmt treeBuilt treeSpelled, literals_expr testBuilt testSpelled]
  | .returns loc value, built, spelled => by
      obtain ⟨inner, innerBuilt, rfl⟩ := one_eq_ok.mp built
      obtain ⟨word, last, between, rfl, valueSpelled, -⟩ := spelled
      simp [literals_exprOption innerBuilt valueSpelled]
  | .breaks loc label, built, spelled => by
      obtain rfl := ok_eq_ok.mp built
      obtain ⟨word, last, between, rfl, labelSpelled, -⟩ := spelled
      simp [literalsOf_label labelSpelled]
  | .continues loc label, built, spelled => by
      obtain rfl := ok_eq_ok.mp built
      obtain ⟨word, last, between, rfl, labelSpelled, -⟩ := spelled
      simp [literalsOf_label labelSpelled]
  | .throws loc value, built, spelled => by
      obtain ⟨inner, innerBuilt, rfl⟩ := one_eq_ok.mp built
      obtain ⟨word, last, between, rfl, valueSpelled, -⟩ := spelled
      simp [literals_expr innerBuilt valueSpelled]
  | .tryCatch loc tree clause finalizer, built, spelled => by
      obtain ⟨handled, clauseBuilt, last, finalizerBuilt, block, blockBuilt, rfl⟩ :=
        three_eq_ok.mp built
      obtain ⟨word, inner, between, after, rfl, treeSpelled, clauseSpelled, finalizerSpelled,
        -⟩ := spelled
      simp [literals_block blockBuilt treeSpelled, literals_handler clauseBuilt clauseSpelled,
        literals_finalizer finalizerBuilt finalizerSpelled]
  | .switch loc subject trees, built, spelled => by
      obtain ⟨first, subjectBuilt, items, itemsBuilt, rfl⟩ := two_eq_ok.mp built
      obtain ⟨word, opened, closed, brace, last, inner, after, rfl, subjectSpelled, treesSpelled,
        -⟩ := spelled
      simp [literals_expr subjectBuilt subjectSpelled, literals_cases itemsBuilt treesSpelled]
  | .labeled loc label tree, built, spelled => by
      obtain ⟨inner, innerBuilt, rfl⟩ := one_eq_ok.mp built
      obtain ⟨colon, after, rfl, treeSpelled, -⟩ := spelled
      simp [literals_stmt innerBuilt treeSpelled]
  | .expr loc value, built, spelled => by
      obtain ⟨inner, innerBuilt, rfl⟩ := one_eq_ok.mp built
      obtain ⟨last, valueSpelled, -⟩ := spelled
      simp [literals_expr innerBuilt valueSpelled]
  | .empty loc, built, spelled => by
      obtain rfl := ok_eq_ok.mp built
      obtain rfl : tokens = _ := spelled
      rfl

theorem literals_else {body : Option Stmt} {tokens rest : List Token} :
    ∀ {tree : Option Concrete.Stmt}, stmtOption tree = .ok body → elseSpells tree tokens rest →
    literalsOf tokens = stmtOptionLiterals body ++ literalsOf rest
  | none, built, spelled => by
      obtain rfl := ok_eq_ok.mp built
      exact congrArg literalsOf spelled
  | some tree, built, spelled => by
      obtain ⟨inner, innerBuilt, rfl⟩ := one_eq_ok.mp built
      obtain ⟨word, between, rfl, treeSpelled⟩ := spelled
      simp [literals_stmt innerBuilt treeSpelled]

theorem literals_stmts {body : List Stmt} {tokens rest : List Token} :
    ∀ {trees : List Concrete.Stmt}, stmts trees = .ok body → stmtsSpell trees tokens rest →
    literalsOf tokens = stmtsLiterals body ++ literalsOf rest
  | [], built, spelled => by
      obtain rfl := ok_eq_ok.mp built
      exact congrArg literalsOf spelled
  | first :: more, built, spelled => by
      obtain ⟨inner, innerBuilt, others, othersBuilt, rfl⟩ := two_eq_ok.mp built
      obtain ⟨between, firstSpelled, othersSpelled⟩ := spelled
      simp [literals_stmt innerBuilt firstSpelled, literals_stmts othersBuilt othersSpelled]

end

end Build

end LoopCapture
