import LoopCapture.Source.Loc

/-!
Tokens: the terminal symbols of the grammar, and terminals with their places in a program text.
-/

set_option autoImplicit false

namespace LoopCapture

/-- Reserved words. They are never names. -/
inductive Keyword where
  | «var»
  | «let»
  | «const»
  | «function»
  | «if»
  | «else»
  | «for»
  | «in»
  | «of»
  | «while»
  | «do»
  | «return»
  | «break»
  | «continue»
  | «throw»
  | «try»
  | «catch»
  | «finally»
  | «switch»
  | «case»
  | «default»
  | «typeof»
  | «true»
  | «false»
  | «null»
  | «this»
  deriving DecidableEq, Repr

def Keyword.text : Keyword → String
  | .var => "var"
  | .let => "let"
  | .const => "const"
  | .function => "function"
  | .if => "if"
  | .else => "else"
  | .for => "for"
  | .in => "in"
  | .of => "of"
  | .while => "while"
  | .do => "do"
  | .return => "return"
  | .break => "break"
  | .continue => "continue"
  | .throw => "throw"
  | .try => "try"
  | .catch => "catch"
  | .finally => "finally"
  | .switch => "switch"
  | .case => "case"
  | .default => "default"
  | .typeof => "typeof"
  | .true => "true"
  | .false => "false"
  | .null => "null"
  | .this => "this"

def Keyword.all : List Keyword := [
  .var, .let, .const, .function, .if, .else, .for, .in, .of, .while, .do, .return, .break,
  .continue, .throw, .try, .catch, .finally, .switch, .case, .default, .typeof, .true, .false,
  .null, .this]

def Keyword.ofText? (text : String) : Option Keyword :=
  Keyword.all.find? (·.text == text)

inductive Mark where
  | semicolon
  | comma
  | dot
  | colon
  | question
  | openParen
  | closeParen
  | openBracket
  | closeBracket
  | openBrace
  | closeBrace
  | arrow
  | assign
  | addAssign
  | subAssign
  | mulAssign
  | divAssign
  | remAssign
  | or
  | and
  | strictEqual
  | strictUnequal
  | looseEqual
  | looseUnequal
  | less
  | lessEqual
  | greater
  | greaterEqual
  | plus
  | minus
  | times
  | over
  | percent
  | bang
  | increment
  | decrement
  deriving DecidableEq, Repr

def Mark.text : Mark → String
  | .semicolon => ";"
  | .comma => ","
  | .dot => "."
  | .colon => ":"
  | .question => "?"
  | .openParen => "("
  | .closeParen => ")"
  | .openBracket => "["
  | .closeBracket => "]"
  | .openBrace => "\x7b"
  | .closeBrace => "\x7d"
  | .arrow => "=>"
  | .assign => "="
  | .addAssign => "+="
  | .subAssign => "-="
  | .mulAssign => "*="
  | .divAssign => "/="
  | .remAssign => "%="
  | .or => "||"
  | .and => "&&"
  | .strictEqual => "==="
  | .strictUnequal => "!=="
  | .looseEqual => "=="
  | .looseUnequal => "!="
  | .less => "<"
  | .lessEqual => "<="
  | .greater => ">"
  | .greaterEqual => ">="
  | .plus => "+"
  | .minus => "-"
  | .times => "*"
  | .over => "/"
  | .percent => "%"
  | .bang => "!"
  | .increment => "++"
  | .decrement => "--"

/-- All marks, the longer ones first, so that the first one found at a place is the longest. -/
def Mark.longestFirst : List Mark := [
  .strictEqual, .strictUnequal,
  .arrow, .addAssign, .subAssign, .mulAssign, .divAssign, .remAssign, .or, .and, .looseEqual,
  .looseUnequal, .lessEqual, .greaterEqual, .increment, .decrement,
  .semicolon, .comma, .dot, .colon, .question, .openParen, .closeParen, .openBracket,
  .closeBracket, .openBrace, .closeBrace, .assign, .less, .greater, .plus, .minus, .times, .over,
  .percent, .bang]

/-- Terminal symbols of the grammar. Names, numbers and strings keep their spelling. -/
inductive Terminal where
  | name (text : String)
  | number (text : String)
  | string (text : String)
  | keyword (word : Keyword)
  | mark (m : Mark)
  deriving DecidableEq, Repr

def Terminal.text : Terminal → String
  | .name text => text
  | .number text => text
  | .string text => text
  | .keyword word => word.text
  | .mark m => m.text

structure Token where
  terminal : Terminal
  loc : Loc
  deriving DecidableEq, Repr

def Token.text (token : Token) : String := token.terminal.text

end LoopCapture
