import LoopCapture.Proofs.Outline.Sites

/-!
# What a node says about the node above it

Statements stand under statements, in the bodies of loops and of functions, or in the program
itself, but never in an expression; the block of a function is directly under the function, the
body of a loop directly under the loop, and nothing is under the name of a function. All of this is
read off the shapes of the parts of a program, from one node to the nodes under it.
-/

set_option autoImplicit false

namespace LoopCapture

def Slot.isName : Slot → Bool
  | .declared => true
  | .functionName => true
  | .parameter => true
  | .caught => true
  | _ => false

/-- The forms of expressions. Function declarations share theirs with function expressions. -/
def Form.isExpr : Form → Bool
  | .identifier _ | .literal | .this | .array | .function _ | .call | .member | .assignment
  | .binary | .logical | .unary | .update | .conditional | .sequence => true
  | _ => false

def Form.isStmt : Form → Bool
  | .declaration _ | .function _ | .block | .expression | .empty | .ifElse | .loop _ | .returns
  | .breaks _ | .continues _ | .throws | .tryCatch | .switch | .labeled _ => true
  | _ => false

namespace Label

/-- Statements that have statements under them, and the parts of such statements. The block of a
function is a part of the function. -/
def isCompound (label : Label) : Bool :=
  match label.form with
  | .block => label.slot != .functionBody
  | .ifElse | .loop _ | .tryCatch | .catchClause | .switch | .case | .labeled _ => true
  | _ => false

def holdsStatements (label : Label) : Bool :=
  label.isCompound || label.slot == .functionBody || label.form == .program

/-- What a label says about the label above it. -/
structure Under (child parent : Label) : Prop where
  unnamed : parent.slot ≠ .functionName
  name : child.slot.isName = true → ∃ name, child.form = .identifier name
  functionBody : child.slot = .functionBody → parent.form.isFunction = true
  loopBody : child.slot = .loopBody → parent.form.isLoop = true
  inLoop : child.isCompound = true → parent.form.isLoop = true → child.slot = .loopBody
  compound : child.isCompound = true → parent.holdsStatements = true
  declaration : ∀ kind, child.form = .declaration kind → parent.holdsStatements = true

end Label

namespace Outline

open Tree

/-! ## Parts of programs -/

/-- The shapes of the parts of a program. -/
inductive Part : Tree Label → Prop
  | ident {slot : Slot} (x : Ident) : slot ≠ .functionBody → slot ≠ .loopBody → Part (ident slot x)
  | expr (value : Expr) : Part (expr .plain value)
  | stmt {slot : Slot} (body : Stmt) : slot = .plain ∨ slot = .loopBody → Part (stmt slot body)
  | functionBody (body : Block) : Part (block .functionBody body)
  | declarator (loc : Loc) (x : Ident) (init : Option Expr) :
      Part (.node ⟨.plain, .declarator, loc⟩ (ident .declared x :: exprOption init))
  | catchClause (loc : Loc) (param : Ident) (body : Block) :
      Part (.node ⟨.plain, .catchClause, loc⟩ [ident .caught param, block .plain body])
  | case (loc : Loc) (test : Option Expr) (body : List Stmt) :
      Part (.node ⟨.plain, .case, loc⟩ (exprOption test ++ stmts body))

theorem isExpr_place (slot : Slot) (target : Place) :
    (place slot target).label.form.isExpr = true := by
  cases target <;> rfl

theorem isExpr_expr (slot : Slot) (value : Expr) : (expr slot value).label.form.isExpr = true := by
  cases value with
  | place target => exact isExpr_place slot target
  | _ => rfl

theorem isStmt_stmt (slot : Slot) (body : Stmt) : (stmt slot body).label.form.isStmt = true := by
  cases body with
  | declaration item =>
      cases item
      rfl
  | block body =>
      cases body
      rfl
  | _ => rfl

/-- A tree is a part of a program that may stand under a label. -/
def Admits (parent : Label) (tree : Tree Label) : Prop := Part tree ∧ tree.label.Under parent

/-- A label admits all of some trees. -/
def Below (parent : Label) : List (Tree Label) → Prop
  | [] => True
  | tree :: rest => Admits parent tree ∧ Below parent rest

variable {parent : Label} {tree : Tree Label} {trees rest : List (Tree Label)}

theorem below_iff : Below parent trees ↔ ∀ tree ∈ trees, Admits parent tree := by
  induction trees with
  | nil => simp [Below]
  | cons tree rest ih => simp [Below, ih]

theorem Below.append (first : Below parent trees) (second : Below parent rest) :
    Below parent (trees ++ rest) :=
  below_iff.mpr (List.forall_mem_append.mpr ⟨below_iff.mp first, below_iff.mp second⟩)

section Names

variable (unnamed : parent.slot ≠ .functionName)

include unnamed

theorem ident_below {slot : Slot} (x : Ident) (notFunctionBody : slot ≠ .functionBody)
    (notLoopBody : slot ≠ .loopBody) : Admits parent (ident slot x) := by
  refine ⟨.ident x notFunctionBody notLoopBody, unnamed, fun _ => ⟨x.name, rfl⟩,
    fun other => absurd other notFunctionBody, fun other => absurd other notLoopBody, ?_, ?_,
    fun _ form => nomatch form⟩
  all_goals simp [ident, leaf, Tree.label, Label.isCompound]

theorem expr_below (value : Expr) :
    Admits parent (expr .plain value) := by
  have isExpr := isExpr_expr .plain value
  have slot := slot_expr .plain value
  refine ⟨.expr value, unnamed, ?_, ?_, ?_, fun compound => ?_, fun compound => ?_,
    fun kind form => ?_⟩
  · simp [slot, Slot.isName]
  · simp [slot]
  · simp [slot]
  · cases form : (expr .plain value).label.form <;>
      simp [form, Label.isCompound, Form.isExpr] at compound isExpr
  · cases form : (expr .plain value).label.form <;>
      simp [form, Label.isCompound, Form.isExpr] at compound isExpr
  · simp [form, Form.isExpr] at isExpr

theorem functionBody_below (body : Block) (function : parent.form.isFunction = true) :
    Admits parent (block .functionBody body) := by
  refine ⟨.functionBody body, ?_⟩
  obtain ⟨loc, body⟩ := body
  exact ⟨unnamed, (nomatch ·), fun _ => function, (nomatch ·), (nomatch ·), (nomatch ·),
    fun _ => (nomatch ·)⟩

theorem under_of_holds (slot : tree.label.slot = .plain) (holds : parent.holdsStatements = true)
    (notLoop : parent.form.isLoop = false) : tree.label.Under parent := by
  refine ⟨unnamed, ?_, ?_, ?_, fun _ loop => ?_, fun _ => holds, fun _ _ => holds⟩
  · simp [slot, Slot.isName]
  · simp [slot]
  · simp [slot]
  · simp [notLoop] at loop

theorem loopBody_below (body : Stmt) (loop : parent.form.isLoop = true)
    (holds : parent.holdsStatements = true) :
    Admits parent (stmt .loopBody body) := by
  have slot := slot_stmt .loopBody body
  refine ⟨.stmt body (.inr rfl), unnamed, ?_, ?_, fun _ => loop, fun _ _ => slot, fun _ => holds,
    fun _ _ => holds⟩
  · simp [slot, Slot.isName]
  · simp [slot]

theorem header_below (item : Declaration) (holds : parent.holdsStatements = true) :
    Admits parent (declaration .plain item) := by
  refine ⟨.stmt (.declaration item) (.inl rfl), ?_⟩
  obtain ⟨loc, kind, items⟩ := item
  exact ⟨unnamed, (nomatch ·), (nomatch ·), (nomatch ·), (nomatch ·), fun _ => holds, fun _ _ => holds⟩

end Names

section Lists

variable (unnamed : parent.slot ≠ .functionName)

include unnamed

theorem below_params (names : List Ident) : Below parent (params names) := by
  apply below_iff.mpr
  intro tree member
  obtain ⟨x, -, rfl⟩ := List.mem_map.mp member
  exact ident_below unnamed x (by nofun) (by nofun)

theorem below_label (label : Option Ident) : Below parent (labelOption label) := by
  cases label with
  | none => exact trivial
  | some x => exact ⟨ident_below unnamed x (by nofun) (by nofun), trivial⟩

theorem below_exprs (items : List Expr) : Below parent (exprs items) := by
  induction items with
  | nil => exact trivial
  | cons first rest ih => exact ⟨expr_below unnamed first, ih⟩

theorem below_exprOption (value : Option Expr) : Below parent (exprOption value) := by
  cases value with
  | none => exact trivial
  | some value => exact ⟨expr_below unnamed value, trivial⟩

theorem arrowBody_below (body : ArrowBody) (function : parent.form.isFunction = true) :
    Admits parent (arrowBody body) := by
  cases body with
  | block body => exact functionBody_below unnamed body function
  | expr value => exact expr_below unnamed value

theorem below_declarators (items : List Declarator) : Below parent (declarators items) := by
  induction items with
  | nil => exact trivial
  | cons item rest ih =>
      obtain ⟨loc, x, init⟩ := item
      refine ⟨⟨.declarator loc x init, ?_⟩, ih⟩
      exact ⟨unnamed, (nomatch ·), (nomatch ·), (nomatch ·), (nomatch ·), (nomatch ·),
        fun _ => (nomatch ·)⟩

theorem below_forInit (init : Option ForInit) (holds : parent.holdsStatements = true) :
    Below parent (forInit init) := by
  cases init with
  | none => exact trivial
  | some init =>
      cases init with
      | declaration item => exact ⟨header_below unnamed item holds, trivial⟩
      | expr value => exact ⟨expr_below unnamed value, trivial⟩

theorem forTarget_below (target : ForTarget) (holds : parent.holdsStatements = true) :
    Admits parent (forTarget target) := by
  cases target with
  | existing x => exact ident_below unnamed x (by nofun) (by nofun)
  | declared loc kind x => exact header_below unnamed (.mk loc kind [.mk x.loc x none]) holds

end Lists

/-! ## From a part to the parts under it -/

section Statements

variable (unnamed : parent.slot ≠ .functionName) (holds : parent.holdsStatements = true)
  (notLoop : parent.form.isLoop = false)

include unnamed holds notLoop

theorem stmt_below (body : Stmt) :
    Admits parent (stmt .plain body) :=
  ⟨.stmt body (.inl rfl), under_of_holds unnamed (slot_stmt .plain body) holds notLoop⟩

theorem block_below (body : Block) :
    Admits parent (block .plain body) :=
  stmt_below unnamed holds notLoop (.block body)

theorem below_stmts (body : List Stmt) : Below parent (stmts body) := by
  induction body with
  | nil => exact trivial
  | cons first rest ih => exact ⟨stmt_below unnamed holds notLoop first, ih⟩

theorem below_stmtOption (body : Option Stmt) : Below parent (stmtOption body) := by
  cases body with
  | none => exact trivial
  | some body => exact ⟨stmt_below unnamed holds notLoop body, trivial⟩

theorem below_handler (clause : Option CatchClause) : Below parent (handler clause) := by
  cases clause with
  | none => exact trivial
  | some clause =>
      obtain ⟨loc, param, body⟩ := clause
      exact ⟨⟨.catchClause loc param body, under_of_holds unnamed rfl holds notLoop⟩,
        trivial⟩

theorem below_blockOption (body : Option Block) : Below parent (blockOption body) := by
  cases body with
  | none => exact trivial
  | some body => exact ⟨block_below unnamed holds notLoop body, trivial⟩

theorem below_cases (items : List Case) : Below parent (cases items) := by
  induction items with
  | nil => exact trivial
  | cons item rest ih =>
      obtain ⟨loc, test, body⟩ := item
      exact ⟨⟨.case loc test body, under_of_holds unnamed rfl holds notLoop⟩, ih⟩

end Statements

theorem below_expr : ∀ value : Expr, Below (expr .plain value).label (expr .plain value).children
  | .place (.ident _) | .literal _ _ _ | .this _ => trivial
  | .place (.member _ object property) =>
      ⟨expr_below (by nofun) object, ident_below (by nofun) property (by nofun) (by nofun), trivial⟩
  | .place (.index _ object key) =>
      ⟨expr_below (by nofun) object, expr_below (by nofun) key, trivial⟩
  | .array _ items | .sequence _ items => below_exprs (by nofun) items
  | .function _ names body =>
      (below_params (by nofun) names).append ⟨functionBody_below (by nofun) body rfl, trivial⟩
  | .arrow _ names body =>
      (below_params (by nofun) names).append ⟨arrowBody_below (by nofun) body rfl, trivial⟩
  | .call _ callee args => ⟨expr_below (by nofun) callee, below_exprs (by nofun) args⟩
  | .assign _ _ target value =>
      ⟨expr_below (by nofun) (.place target), expr_below (by nofun) value, trivial⟩
  | .update _ _ _ target => ⟨expr_below (by nofun) (.place target), trivial⟩
  | .binary _ _ left right | .logical _ _ left right =>
      ⟨expr_below (by nofun) left, expr_below (by nofun) right, trivial⟩
  | .unary _ _ operand => ⟨expr_below (by nofun) operand, trivial⟩
  | .conditional _ test yes no =>
      ⟨expr_below (by nofun) test, expr_below (by nofun) yes, expr_below (by nofun) no, trivial⟩

theorem below_stmt {slot : Slot} (unnamed : slot ≠ .functionName) : ∀ body : Stmt,
    Below (stmt slot body).label (stmt slot body).children
  | .declaration (.mk _ _ items) => below_declarators unnamed items
  | .function _ name names body =>
      ⟨ident_below unnamed name (by nofun) (by nofun), (below_params unnamed names).append
        ⟨functionBody_below unnamed body rfl, trivial⟩⟩
  | .block (.mk _ body) => below_stmts unnamed (by cases slot <;> rfl) rfl body
  | .expr _ value | .throws _ value => ⟨expr_below unnamed value, trivial⟩
  | .empty _ => trivial
  | .ifElse _ test yes no =>
      ⟨expr_below unnamed test, stmt_below unnamed rfl rfl yes,
        below_stmtOption unnamed rfl rfl no⟩
  | .forLoop _ init test update body =>
      (((below_forInit unnamed init rfl).append
        (below_exprOption unnamed test)).append (below_exprOption unnamed update)).append
          ⟨loopBody_below unnamed body rfl rfl, trivial⟩
  | .forEach _ _ target subject body =>
      ⟨forTarget_below unnamed target rfl, expr_below unnamed subject,
        loopBody_below unnamed body rfl rfl, trivial⟩
  | .whileLoop _ test body =>
      ⟨expr_below unnamed test, loopBody_below unnamed body rfl rfl, trivial⟩
  | .doWhile _ body test =>
      ⟨loopBody_below unnamed body rfl rfl, expr_below unnamed test, trivial⟩
  | .returns _ value => below_exprOption unnamed value
  | .breaks _ label | .continues _ label => below_label unnamed label
  | .tryCatch _ body clause finalizer =>
      ⟨stmt_below unnamed rfl rfl (.block body),
        (below_handler unnamed rfl rfl clause).append
          (below_blockOption unnamed rfl rfl finalizer)⟩
  | .switch _ subject items =>
      ⟨expr_below unnamed subject, below_cases unnamed rfl rfl items⟩
  | .labeled _ label body =>
      ⟨ident_below unnamed label (by nofun) (by nofun),
        stmt_below unnamed rfl rfl body, trivial⟩

/-- What stands under a part of a program are parts of it, and their labels say about the label
above them what the grammar says. -/
theorem Part.below (part : Part tree) : Below tree.label tree.children := by
  cases part with
  | ident x => trivial
  | expr value => exact below_expr value
  | stmt body placed => exact below_stmt (by rcases placed with rfl | rfl <;> nofun) body
  | functionBody body => exact below_stmt (by nofun) (.block body)
  | declarator loc x init =>
      exact ⟨ident_below (by nofun) x (by nofun) (by nofun), below_exprOption (by nofun) init⟩
  | catchClause loc param body =>
      exact ⟨ident_below (by nofun) param (by nofun) (by nofun),
        stmt_below (by nofun) rfl rfl (.block body), trivial⟩
  | case loc test body =>
      exact (below_exprOption (by nofun) test).append (below_stmts (by nofun) rfl rfl body)

mutual

theorem Part.edges : ∀ {tree : Tree Label}, Part tree → Edges Label.Under tree
  | .node _ _, part => part.below.edges

theorem Below.edges {parent : Label} : ∀ {trees : List (Tree Label)}, Below parent trees →
    EdgesUnder Label.Under parent trees
  | [], _ => trivial
  | _ :: _, below => ⟨below.1.2, below.1.1.edges, below.2.edges⟩

end

theorem below_program (program : Program) :
    Below ⟨.plain, .program, program.loc⟩ (stmts program.body) :=
  below_stmts (by nofun) rfl rfl program.body

/-- The labels of a program say about the labels above them what its grammar says. -/
theorem edges_shape (program : Program) : Edges Label.Under (shape program) :=
  (below_program program).edges

mutual

theorem Part.number : ∀ {tree : Tree Label} {above : List Node} {next : Nat}, Part tree →
    ∀ part ∈ (Outline.number above next tree).1.subtrees,
      ∃ above next shape, part = (Outline.number above next shape).1 ∧ Part shape
  | .node label children, above, next, known, part, inside => by
      rcases List.mem_cons.mp inside with rfl | below
      · exact ⟨above, next, .node label children, rfl, known⟩
      · exact known.below.number part below

theorem Below.number {parent : Label} : ∀ {trees : List (Tree Label)} {above : List Node}
    {next : Nat}, Below parent trees → ∀ part ∈ subtreesAll (numberAll above next trees).1,
      ∃ above next shape, part = (Outline.number above next shape).1 ∧ Part shape
  | tree :: rest, above, next, known, part, inside => by
      rcases List.mem_append.mp inside with here | later
      · exact known.1.1.number part here
      · exact known.2.number part later

end

/-- Everything in a program but the program itself has the shape of a part. -/
theorem exists_part {program : Program} {part : Outline}
    (inside : part ∈ (ofProgram program).subtrees) (notRoot : part.label.node.form ≠ .program) :
    ∃ above next shape, part = (number above next shape).1 ∧ Part shape := by
  rcases List.mem_cons.mp inside with rfl | below
  · exact absurd rfl notRoot
  · exact (below_program program).number part below

/-! ## Loops and declarators -/

/-- What is neither an expression nor a statement is a part of a statement. -/
theorem Part.of_form (part : Part tree) {form : Form} (same : tree.label.form = form)
    (notExpr : form.isExpr = false) (notStmt : form.isStmt = false) :
    form = .declarator ∧ (∃ x init, tree.children = Outline.ident .declared x :: exprOption init) ∨
      form = .catchClause ∨ form = .case := by
  cases part with
  | ident x => simp [← same, Outline.ident, leaf, Tree.label, Form.isExpr] at notExpr
  | expr value => simp [← same, isExpr_expr] at notExpr
  | stmt body => simp [← same, isStmt_stmt] at notStmt
  | functionBody body =>
      have isStmt := isStmt_stmt .functionBody (.block body)
      rw [Outline.stmt, same, notStmt] at isStmt
      cases isStmt
  | declarator loc x init => exact .inl ⟨same.symm, x, init, rfl⟩
  | catchClause => exact .inr (.inl same.symm)
  | case => exact .inr (.inr same.symm)

theorem Part.exists_stmt (part : Part tree) (isLoop : tree.label.form.isLoop = true) :
    ∃ slot body, tree = Outline.stmt slot body := by
  cases part with
  | stmt body => exact ⟨_, body, rfl⟩
  | expr value =>
      have isExpr := isExpr_expr .plain value
      cases form : (Outline.expr .plain value).label.form with
      | loop kind => simp [form, Form.isExpr] at isExpr
      | _ => simp [form, Form.isLoop] at isLoop
  | functionBody body => exact ⟨_, .block body, rfl⟩
  | _ => cases isLoop

theorem forms_declarators (items : List Declarator) :
    ∀ child ∈ declarators items, child.label.form = .declarator := by
  induction items with
  | nil => exact fun _ member => nomatch member
  | cons item items ih =>
      obtain ⟨loc, x, init⟩ := item
      rw [declarators]
      exact List.forall_mem_cons.mpr ⟨rfl, ih⟩

theorem Part.of_declaration {kind : DeclKind} (part : Part tree)
    (form : tree.label.form = .declaration kind) :
    ∀ child ∈ tree.children, child.label.form = .declarator := by
  cases part with
  | stmt body =>
      cases body with
      | declaration item =>
          obtain ⟨loc, kind, items⟩ := item
          exact forms_declarators items
      | block body =>
          cases body
          cases form
      | _ => cases form
  | expr value =>
      have isExpr := isExpr_expr .plain value
      rw [form] at isExpr
      cases isExpr
  | functionBody body =>
      cases body
      cases form
  | _ => cases form

theorem root_of_program {program : Program} {part : Outline}
    (inside : part ∈ (ofProgram program).subtrees) (form : part.label.node.form = .program) :
    part = ofProgram program := by
  rcases List.mem_cons.mp inside with rfl | below
  · rfl
  · obtain ⟨above, next, shape, rfl, known⟩ := (below_program program).number part below
    rw [form_number] at form
    rcases known.of_form form rfl rfl with ⟨other, -⟩ | other | other <;> cases other

theorem exists_stmt_of_isLoop {program : Program} {loop : Outline}
    (inside : loop ∈ (ofProgram program).subtrees) (isLoop : loop.label.node.isLoop = true) :
    ∃ above next slot body, loop = (Outline.number above next (stmt slot body)).1 := by
  obtain ⟨above, next, shape, rfl, part⟩ := exists_part inside (by
    intro form
    simp [Node.isLoop, form, Form.isLoop] at isLoop)
  rw [Node.isLoop, form_number] at isLoop
  obtain ⟨slot, body, rfl⟩ := part.exists_stmt isLoop
  exact ⟨above, next, slot, body, rfl⟩

/-- The variable of a declarator is the one that its declaration finds. -/
theorem find?_declared {program : Program} {declarator child : Outline}
    (inside : declarator ∈ (ofProgram program).subtrees)
    (form : declarator.label.node.form = .declarator) (among : child ∈ declarator.children)
    (slot : child.label.node.slot = .declared) :
    declarator.children.find? (·.label.node.slot == .declared) = some child := by
  obtain ⟨above, next, ⟨label, children⟩, rfl, part⟩ := exists_part inside (by simp [form])
  obtain ⟨x, init, rfl⟩ : ∃ x init, children = ident .declared x :: exprOption init := by
    rcases part.of_form form rfl rfl with ⟨-, known⟩ | other | other
    · exact known
    · cases other
    · cases other
  simp only [number, Tree.children, numberAll] at among ⊢
  rcases List.mem_cons.mp among with rfl | later
  · exact List.find?_cons_of_pos (by rw [slot]; rfl)
  · -- The value of the variable stands in no such place.
    obtain ⟨value, inValue, same⟩ := exists_label_numberAll child later
    have plain : child.label.node.slot = .plain :=
      (congrArg Label.slot same).trans (slot_exprOption inValue)
    rw [slot] at plain
    cases plain

theorem form_declarator {program : Program} {declaration child : Outline} {kind : DeclKind}
    (inside : declaration ∈ (ofProgram program).subtrees)
    (form : declaration.label.node.form = .declaration kind)
    (among : child ∈ declaration.children) : child.label.node.form = .declarator := by
  obtain ⟨above, next, ⟨label, children⟩, rfl, part⟩ := exists_part inside (by simp [form])
  obtain ⟨item, inItem, same⟩ := exists_label_numberAll child among
  exact (congrArg Label.form same).trans (part.of_declaration form item inItem)

end Outline

def Stmt.loopBody? : Stmt → Option Stmt
  | .forLoop _ _ _ _ body => some body
  | .forEach _ _ _ _ body => some body
  | .whileLoop _ _ body => some body
  | .doWhile _ body _ => some body
  | _ => none

namespace Outline

theorem loopBody?_of_isLoop {slot : Slot} {loop : Stmt}
    (isLoop : (stmt slot loop).label.form.isLoop = true) : ∃ body, loop.loopBody? = some body := by
  cases loop with
  | forLoop loc init test update body => exact ⟨body, rfl⟩
  | forEach loc kind target subject body => exact ⟨body, rfl⟩
  | whileLoop loc test body => exact ⟨body, rfl⟩
  | doWhile loc body test => exact ⟨body, rfl⟩
  | declaration item => cases item; cases isLoop
  | block body => cases body; cases isLoop
  | _ => cases isLoop

/-- The body of a loop is the only tree under it in the place of a body. -/
theorem children_loop {loop body : Stmt} (bodied : loop.loopBody? = some body) (slot : Slot) :
    ∃ before after, (stmt slot loop).children = before ++ stmt .loopBody body :: after ∧
      (∀ tree ∈ before, tree.label.slot = .plain) ∧ ∀ tree ∈ after, tree.label.slot = .plain := by
  cases loop with
  | forLoop loc init test update inner =>
      obtain rfl := Option.some.inj bodied
      refine ⟨forInit init ++ exprOption test ++ exprOption update, [], rfl, ?_, by simp⟩
      intro tree member
      rcases List.mem_append.mp member with front | inUpdate
      · rcases List.mem_append.mp front with inInit | inTest
        · exact slot_forInit inInit
        · exact slot_exprOption inTest
      · exact slot_exprOption inUpdate
  | forEach loc kind target subject inner =>
      obtain rfl := Option.some.inj bodied
      refine ⟨[forTarget target, expr .plain subject], [], rfl, ?_, by simp⟩
      simp [slot_forTarget, slot_expr]
  | whileLoop loc test inner =>
      obtain rfl := Option.some.inj bodied
      exact ⟨[expr .plain test], [], rfl, by simp [slot_expr], by simp⟩
  | doWhile loc inner test =>
      obtain rfl := Option.some.inj bodied
      exact ⟨[], [expr .plain test], rfl, by simp, by simp [slot_expr]⟩
  | _ => cases bodied

/-- A declaration in the header of a loop comes first and declares one variable, except in `for`
loops. -/
theorem declaration_of_header {slot : Slot} {loop : Stmt} {above : List Node} {next : Nat}
    (isLoop : (stmt slot loop).label.form.isLoop = true) {declaration : Outline} {kind : DeclKind}
    (among : declaration ∈ (number above next (stmt slot loop)).1.children)
    (form : declaration.label.node.form = .declaration kind)
    (plain : declaration.label.node.slot ≠ .loopBody) :
    (stmt slot loop).label.form = .loop .forLoop ∨ ∃ each rest declarator ident,
      (stmt slot loop).label.form = .loop (.forEach each) ∧
      (number above next (stmt slot loop)).1.children = declaration :: rest ∧
      declaration.children = [.node declarator [.node ident []]] ∧
      declaration.label.node.slot = .plain ∧ ident.node.slot = .declared ∧
      declaredIdents declaration = [ident] := by
  have notExpr {value : Expr} {above : List Node} {next : Nat}
      (same : declaration = (number above next (expr .plain value)).1) : False := by
    have isExpr := isExpr_expr .plain value
    rw [same, form_number] at form
    rw [form] at isExpr
    cases isExpr
  have notBody {body : Stmt} {above : List Node} {next : Nat}
      (same : declaration = (number above next (stmt .loopBody body)).1) : False := by
    rw [same, slot_number, slot_stmt] at plain
    exact plain rfl
  cases loop with
  | forLoop => exact .inl rfl
  | forEach loc each target subject body =>
      simp only [number, numberAll, stmt, Tree.children, List.mem_cons, List.not_mem_nil,
        or_false] at among
      rcases among with rfl | same | same
      · cases target with
        | existing x => cases form
        | declared => exact .inr ⟨each, _, _, _, rfl, rfl, rfl, rfl, rfl, rfl⟩
      · exact (notExpr same).elim
      · exact (notBody same).elim
  | whileLoop loc test body =>
      rcases List.mem_pair.mp among with same | same
      · exact (notExpr same).elim
      · exact (notBody same).elim
  | doWhile loc body test =>
      rcases List.mem_pair.mp among with same | same
      · exact (notBody same).elim
      · exact (notExpr same).elim
  | declaration item => cases item; cases isLoop
  | block body => cases body; cases isLoop
  | _ => cases isLoop

theorem loopBody?_stmt {slot : Slot} {loop body : Stmt} (bodied : loop.loopBody? = some body)
    (above : List Node) (next : Nat) : ∃ free, loopBody? (number above next (stmt slot loop)).1 =
      some (number ({ (stmt slot loop).label with id := next } :: above) free
        (stmt .loopBody body)).1 := by
  obtain ⟨before, after, split, header, -⟩ := children_loop bodied slot
  generalize stmt slot loop = tree at split
  obtain ⟨label, children⟩ := tree
  obtain rfl : children = _ := split
  exact ⟨_, loopBody?_number (slot_stmt .loopBody body) header _ _ _ after⟩

end Outline

end LoopCapture
