import LoopCapture.Text.Digit
import LoopCapture.Token.Basic

/-!
Tokens of a program text.

At each place the text goes on with blanks, a comment, a name or reserved word, a number, a string
or the longest mark that fits. Where it does not, reading stops there; the tokens before that place
are kept, since the grammar may reject one of them first.
-/

set_option autoImplicit false

namespace LoopCapture.Lexer

def isSpace (c : Char) : Bool :=
  c == ' ' || c == '\t' || c == '\n' || c == '\r' || c == '\x0c'

def isNameStart (c : Char) : Bool :=
  c.isAlpha || c == '_' || c == '$'

def isNameChar (c : Char) : Bool :=
  c.isAlphanum || c == '_' || c == '$'

/-- The length of a block comment after its opening, if it is closed. -/
def blockCommentLength? : List Char → Option Nat
  | '*' :: '/' :: _ => some 2
  | _ :: rest => (blockCommentLength? rest).map (· + 1)
  | [] => none

/-- The length of a string after its opening quote, if it is closed on the line. A backslash takes
the character after it along, unless that ends the line. -/
def stringLength? (quote : Char) : List Char → Option Nat
  | [] => none
  | '\\' :: c :: rest => if c = '\n' then none else (stringLength? quote rest).map (· + 2)
  | c :: rest =>
    if c = quote then some 1
    else if c = '\n' || c = '\\' then none
    else (stringLength? quote rest).map (· + 1)

/-- The length of a number: digits, and a fraction if there are digits after the point. -/
def numberLength (cs : List Char) : Nat :=
  let whole := cs.takeWhile Text.isDecimal
  match cs.drop whole.length with
  | '.' :: rest =>
    let fraction := rest.takeWhile Text.isDecimal
    if fraction.isEmpty then whole.length else whole.length + 1 + fraction.length
  | _ => whole.length

def wordTerminal (text : String) : Terminal :=
  match Keyword.ofText? text with
  | some word => .keyword word
  | none => .name text

/-- The longest mark at the front of a text. -/
def mark? (cs : List Char) : Option Mark :=
  Mark.longestFirst.find? fun mark => mark.text.toList.isPrefixOf cs

/-- A piece of text: something to skip, or a terminal; with its length. -/
inductive Piece where
  | skip (length : Nat)
  | terminal (terminal : Terminal) (length : Nat)

def Piece.length : Piece → Nat
  | .skip length => length
  | .terminal _ length => length

def terminalPiece? (c : Char) (rest : List Char) : Option Piece :=
  let cs := c :: rest
  if isNameStart c then
    let text := cs.takeWhile isNameChar
    some (.terminal (wordTerminal (String.ofList text)) text.length)
  else if Text.isDecimal c then
    let length := numberLength cs
    some (.terminal (.number (String.ofList (cs.take length))) length)
  else if c = '"' || c = '\x27' then
    (stringLength? c rest).map fun length =>
      .terminal (.string (String.ofList (cs.take (length + 1)))) (length + 1)
  else
    (mark? cs).map fun mark => .terminal (.mark mark) mark.text.length

def piece? (c : Char) (rest : List Char) : Option Piece :=
  if isSpace c then some (.skip ((c :: rest).takeWhile isSpace).length)
  else match c, rest with
    | '/', '/' :: more => some (.skip (2 + (more.takeWhile (· != '\n')).length))
    | '/', '*' :: more =>
      match blockCommentLength? more with
      | some length => some (.skip (2 + length))
      | none => terminalPiece? c rest
    | _, _ => terminalPiece? c rest

end Lexer

/-- The tokens of a text up to its end or up to the first character that starts no piece. -/
structure Tokens where
  tokens : List Token
  /-- The character that starts no piece, with its place. -/
  stray : Option (Char × Cursor)

namespace Lexer

/-- Reads pieces from a place on. Each piece has at least one character, so as many rounds as there
are characters suffice. -/
def scan : Nat → Cursor → List Char → Tokens
  | 0, _, _ => ⟨[], none⟩
  | _ + 1, _, [] => ⟨[], none⟩
  | rounds + 1, here, c :: rest =>
    match piece? c rest with
    | none => ⟨[], some (c, here)⟩
    | some piece =>
      let text := (c :: rest).take piece.length
      let next := here.advance text
      let later := scan rounds next ((c :: rest).drop piece.length)
      match piece with
      | .skip _ => later
      | .terminal terminal _ => { later with tokens := ⟨terminal, here.rangeTo next⟩ :: later.tokens }

end Lexer

def Tokens.ofText (source : List Char) : Tokens :=
  Lexer.scan source.length .origin source

end LoopCapture
