import LoopCapture.Json.Basic

/-!
Reading JSON.

Besides standard JSON the numbers NaN, Infinity and -Infinity are read, and of members with the
same name the last value counts. A text that is no JSON has a first fault, given with the place
where it was found.
-/

set_option autoImplicit false

namespace LoopCapture.Json

inductive Malformed where
  | expectingValue
  | expectingName
  | expectingColon
  | expectingComma
  | extraData
  | unterminatedString
  | controlCharacter
  | invalidEscape
  | invalidUnicodeEscape
  | byteOrderMark
  deriving DecidableEq, Repr

def Malformed.message : Malformed → String
  | .expectingValue => "Expecting value"
  | .expectingName => "Expecting property name enclosed in double quotes"
  | .expectingColon => "Expecting ':' delimiter"
  | .expectingComma => "Expecting ',' delimiter"
  | .extraData => "Extra data"
  | .unterminatedString => "Unterminated string starting at"
  | .controlCharacter => "Invalid control character at"
  | .invalidEscape => "Invalid \\escape"
  | .invalidUnicodeEscape => "Invalid \\uXXXX escape"
  | .byteOrderMark => "Unexpected UTF-8 BOM (decode using utf-8-sig)"

/-- Why reading stopped. A malformed text is given with what remains from the faulty place on. -/
inductive ReadFault where
  | malformed (cause : Malformed) (remaining : List Char)
  | number (fault : NumberFault)
  | nesting

/-- A reader of a piece of text: the result and the text after it. -/
abbrev Reader (α : Type) := List Char → Except ReadFault (α × List Char)

def isSpace (c : Char) : Bool :=
  c == ' ' || c == '\t' || c == '\n' || c == '\r'

def skipSpace (cs : List Char) : List Char :=
  cs.dropWhile isSpace

/-! ## Strings -/

def shortEscape? : Char → Option Char
  | '"' => some '"'
  | '\\' => some '\\'
  | '/' => some '/'
  | 'b' => some '\x08'
  | 'f' => some '\x0c'
  | 'n' => some '\n'
  | 'r' => some '\r'
  | 't' => some '\t'
  | _ => none

def unit? (cs : List Char) : Option (Nat × List Char) :=
  match cs with
  | a :: b :: c :: d :: rest =>
    if rest.isEmpty then none else (Text.hexNumber? [a, b, c, d]).map (·, rest)
  | _ => none

/-- The code point after `\u`. Two units that form a surrogate pair are one character. -/
def unicodeEscape? (cs : List Char) : Option (CodePoint × List Char) := do
  let (high, rest) ← unit? cs
  if 0xd800 ≤ high && high < 0xdc00 then
    match rest with
    | '\\' :: 'u' :: more =>
      if more.length < 5 then return (.ofNat high, rest)
      let (low, after) ← unit? more
      if 0xdc00 ≤ low && low < 0xe000 then
        return (.ofNat (0x10000 + (high - 0xd800) * 0x400 + (low - 0xdc00)), after)
      else return (.ofNat high, rest)
    | _ => return (.ofNat high, rest)
  else return (.ofNat high, rest)

/-- The rest of a string after its opening quote; `start` is the text from that quote on. Each
round takes at least one character. -/
def stringRest (start : List Char) : Nat → Reader CodePoints
  | 0, _ => .error (.malformed .unterminatedString start)
  | _ + 1, [] => .error (.malformed .unterminatedString start)
  | rounds + 1, c :: rest =>
    if c = '"' then .ok ([], rest)
    else if c = '\\' then
      match rest with
      | [] => .error (.malformed .unterminatedString start)
      | 'u' :: more =>
        match unicodeEscape? more with
        | none => .error (.malformed .invalidUnicodeEscape rest)
        | some (point, after) => do
          let (points, after) ← stringRest start rounds after
          return (point :: points, after)
      | e :: more =>
        match shortEscape? e with
        | none => .error (.malformed .invalidEscape (c :: rest))
        | some c => do
          let (points, after) ← stringRest start rounds more
          return (.char c :: points, after)
    else if c.toNat < 0x20 then .error (.malformed .controlCharacter (c :: rest))
    else do
      let (points, after) ← stringRest start rounds rest
      return (.char c :: points, after)

def stringAfterQuote : Reader CodePoints := fun cs =>
  stringRest ('"' :: cs) (cs.length + 1) cs

/-! ## Numbers -/

def takeAsciiDigits (cs : List Char) : List Char × List Char :=
  cs.span Char.isDigit

def integerPart (cs : List Char) : List Char × List Char :=
  match cs with
  | '0' :: rest => (['0'], rest)
  | _ => takeAsciiDigits cs

def fractionPart (cs : List Char) : List Char × List Char :=
  match cs with
  | '.' :: rest =>
    let (digits, after) := takeAsciiDigits rest
    if digits.isEmpty then ([], cs) else ('.' :: digits, after)
  | _ => ([], cs)

def exponentPart (cs : List Char) : List Char × List Char :=
  match cs with
  | mark :: rest =>
    if mark = 'e' || mark = 'E' then
      let (sign, unsigned) := match rest with
        | '-' :: more => (['-'], more)
        | '+' :: more => (['+'], more)
        | _ => ([], rest)
      let (digits, after) := takeAsciiDigits unsigned
      if digits.isEmpty then ([], cs) else (mark :: (sign ++ digits), after)
    else ([], cs)
  | [] => ([], cs)

/-- A number: an integer, unless it has a fraction or an exponent. -/
def readNumber : Reader Json := fun cs => do
  let (negative, unsigned) := match cs with
    | '-' :: rest => (true, rest)
    | _ => (false, cs)
  let (whole, rest) := integerPart unsigned
  if whole.isEmpty then .error (.malformed .expectingValue cs)
  else
    let (fraction, rest) := fractionPart rest
    let (exponent, rest) := exponentPart rest
    if fraction.isEmpty && exponent.isEmpty then
      match Number.intOfDigits whole with
      | .ok n => return (int (if negative then -n else n), rest)
      | .error fault => .error (.number fault)
    else
      let digits := whole ++ fraction ++ exponent
      let written := if negative then '-' :: digits else digits
      return (.number (.float ((Binary64.ofText? written).getD 0)), rest)

def constants : List (List Char × Json) := [
  ("null".toList, .null), ("true".toList, .bool true), ("false".toList, .bool false),
  ("NaN".toList, .number .nan), ("Infinity".toList, .number .infinity),
  ("-Infinity".toList, .number .negativeInfinity)]

def constant? (cs : List Char) : Option (Json × List Char) :=
  constants.findSome? fun (name, value) =>
    if name.isPrefixOf cs then some (value, cs.drop name.length) else none

/-! ## Values -/

mutual

/-- A value. The depth bounds the nesting and the length of arrays and objects. -/
def readValue : Nat → Reader Json
  | 0, _ => .error .nesting
  | depth + 1, cs =>
    match cs with
    | '"' :: rest => do
      let (text, rest) ← stringAfterQuote rest
      return (.string text, rest)
    | '\x7b' :: rest =>
      match skipSpace rest with
      | '\x7d' :: after => .ok (.object [], after)
      | inside => do
        let (members, rest) ← readMembers depth [] inside
        return (.object members, rest)
    | '[' :: rest =>
      match skipSpace rest with
      | ']' :: after => .ok (.array [], after)
      | inside => do
        let (items, rest) ← readItems depth inside
        return (.array items, rest)
    | _ =>
      match constant? cs with
      | some found => .ok found
      | none => readNumber cs

def readItems : Nat → Reader (List Json)
  | 0, _ => .error .nesting
  | depth + 1, cs => do
    let (item, rest) ← readValue depth cs
    match skipSpace rest with
    | ']' :: after => return ([item], after)
    | ',' :: more =>
      let (items, rest) ← readItems depth (skipSpace more)
      return (item :: items, rest)
    | other => .error (.malformed .expectingComma other)

def readMembers : Nat → Entries CodePoints Json → Reader (Entries CodePoints Json)
  | 0, _, _ => .error .nesting
  | depth + 1, known, cs => do
    match cs with
    | '"' :: rest =>
      let (name, rest) ← stringAfterQuote rest
      match skipSpace rest with
      | ':' :: more =>
        let (value, rest) ← readValue depth (skipSpace more)
        let members := known.put name value
        match skipSpace rest with
        | '\x7d' :: after => return (members, after)
        | ',' :: more => readMembers depth members (skipSpace more)
        | other => .error (.malformed .expectingComma other)
      | other => .error (.malformed .expectingColon other)
    | other => .error (.malformed .expectingName other)

end

def readText (cs : List Char) : Except ReadFault Json := do
  if cs.head? == some '\ufeff' then .error (.malformed .byteOrderMark cs)
  let (value, rest) ← readValue (2 * cs.length + 1) (skipSpace cs)
  match skipSpace rest with
  | [] => return value
  | other => .error (.malformed .extraData other)

/-- The line, counted from one, on which what remains of a text begins. -/
def lineOf (cs remaining : List Char) : Nat :=
  (cs.take (cs.length - remaining.length)).count '\n' + 1

end LoopCapture.Json
