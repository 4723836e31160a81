import LoopCapture.Program.Basic

/-!
Declarations that statements make for the function around them.
-/

set_option autoImplicit false

namespace LoopCapture

inductive Scoping where
  /-- All declarations belong to the function around them. -/
  | function
  /-- `let` and `const` belong to the block around them. -/
  | block
  deriving DecidableEq, Repr

namespace Scoping

def inBlock : Scoping → DeclKind → Bool
  | .function, _ => false
  | .block, kind => kind.isBlockScoped

end Scoping

/-- The names of a declaration that belong to the function around it. -/
def Declaration.hoisted (scoping : Scoping) (declaration : Declaration) : List String :=
  if scoping.inBlock declaration.kind then [] else declaration.names

def ForTarget.hoisted (scoping : Scoping) : ForTarget → List String
  | .declared _ kind ident => if scoping.inBlock kind then [] else [ident.name]
  | .existing _ => []

def ForInit.hoisted (scoping : Scoping) : ForInit → List String
  | .declaration d => d.hoisted scoping
  | .expr _ => []

mutual

def Stmt.hoisted (scoping : Scoping) : Stmt → List String
  | .declaration d => d.hoisted scoping
  | .block b => b.hoisted scoping
  | .ifElse _ _ yes no => yes.hoisted scoping ++ hoistedOption scoping no
  | .forLoop _ init _ _ body => (init.map (·.hoisted scoping)).getD [] ++ body.hoisted scoping
  | .forEach _ _ target _ body => target.hoisted scoping ++ body.hoisted scoping
  | .whileLoop _ _ body => body.hoisted scoping
  | .doWhile _ body _ => body.hoisted scoping
  | .tryCatch _ block handler finalizer =>
    block.hoisted scoping ++ hoistedHandler scoping handler ++ hoistedFinalizer scoping finalizer
  | .switch _ _ cases => hoistedCases scoping cases
  | .labeled _ _ body => body.hoisted scoping
  | _ => []

def hoistedOption (scoping : Scoping) : Option Stmt → List String
  | none => []
  | some stmt => stmt.hoisted scoping

def Block.hoisted (scoping : Scoping) : Block → List String
  | .mk _ body => hoistedNames scoping body

def hoistedHandler (scoping : Scoping) : Option CatchClause → List String
  | none => []
  | some (.mk _ _ body) => body.hoisted scoping

def hoistedFinalizer (scoping : Scoping) : Option Block → List String
  | none => []
  | some block => block.hoisted scoping

def hoistedCases (scoping : Scoping) : List Case → List String
  | [] => []
  | .mk _ _ body :: rest => hoistedNames scoping body ++ hoistedCases scoping rest

def hoistedNames (scoping : Scoping) : List Stmt → List String
  | [] => []
  | stmt :: rest => stmt.hoisted scoping ++ hoistedNames scoping rest

end

end LoopCapture
