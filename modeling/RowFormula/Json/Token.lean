import RowFormula.Json.Numeral

/-! The tokens of JSON text. -/

namespace RowFormula.Json

/-- A token. A scalar is `unreadable` when it follows the grammar but has no value. -/
inductive Token where
  | openArray
  | closeArray
  | openObject
  | closeObject
  | comma
  | colon
  /-- A quoted text, `none` when it holds half of a surrogate pair. -/
  | quoted (value : Option String)
  /-- A scalar other than a text. -/
  | scalar (value : Json)

/-- A piece of a quoted text: a character, or a 16-bit unit written in hexadecimal. -/
inductive Piece where
  | char (c : Char)
  | unit (code : Nat)

/-- The characters that pieces write. A unit from the upper half of the surrogates must be
followed by one from the lower half, and neither may stand alone.
-/
def characters? : List Piece → Option (List Char)
  | [] => some []
  | .char c :: rest => (characters? rest).map (c :: ·)
  | .unit code :: rest =>
    if code < 0xD800 || 0xDFFF < code then (characters? rest).map (Char.ofNat code :: ·)
    else
      match rest with
      | .unit low :: rest =>
        if code < 0xDC00 && 0xDC00 ≤ low && low ≤ 0xDFFF then
          (characters? rest).map
            (Char.ofNat (0x10000 + 0x400 * (code - 0xD800) + (low - 0xDC00)) :: ·)
        else none
      | _ => none

/-- The token of a quoted text whose pieces were read newest first. -/
def Token.ofPieces (pieces : List Piece) : Token :=
  .quoted ((characters? pieces.reverse).map String.ofList)

def hexValue? (c : Char) : Option Nat :=
  if '0' ≤ c && c ≤ '9' then some (c.toNat - '0'.toNat)
  else if 'a' ≤ c && c ≤ 'f' then some (c.toNat - 'a'.toNat + 10)
  else if 'A' ≤ c && c ≤ 'F' then some (c.toNat - 'A'.toNat + 10)
  else none

/-- The 16-bit unit that four hexadecimal digits write. -/
def unit? (a b c d : Char) : Option Piece := do
  return .unit (16 * (16 * (16 * (← hexValue? a) + (← hexValue? b)) + (← hexValue? c))
    + (← hexValue? d))

/-- The character that a backslash and a letter write. -/
def escaped? : Char → Option Char
  | '"' => some '"'
  | '\\' => some '\\'
  | '/' => some '/'
  | 'b' => some '\x08'
  | 'f' => some '\x0c'
  | 'n' => some '\n'
  | 'r' => some '\r'
  | 't' => some '\t'
  | _ => none

/-- The four blanks that may stand between tokens. -/
def isGap (c : Char) : Bool :=
  c = ' ' || c = '\t' || c = '\n' || c = '\r'

/-- Whether a character may stand in a numeral after its first. -/
def isNumeralPart (c : Char) : Bool :=
  c.isDigit || c = '.' || c = 'e' || c = 'E' || c = '+' || c = '-'

/-- The token of a numeral whose characters were read newest first. -/
def Token.ofNumeral? (characters : List Char) : Option Token :=
  (Numeral.ofText? characters.reverse).map fun n => .scalar n.toJson

mutual

/-- Reads tokens, adding them to those already read, newest first. -/
def readTokens (before : List Token) : List Char → Option (List Token)
  | [] => some before.reverse
  | '[' :: rest => readTokens (.openArray :: before) rest
  | ']' :: rest => readTokens (.closeArray :: before) rest
  | '\x7b' :: rest => readTokens (.openObject :: before) rest
  | '\x7d' :: rest => readTokens (.closeObject :: before) rest
  | ',' :: rest => readTokens (.comma :: before) rest
  | ':' :: rest => readTokens (.colon :: before) rest
  | '"' :: rest => readQuoted before [] rest
  | 'n' :: 'u' :: 'l' :: 'l' :: rest => readTokens (.scalar .null :: before) rest
  | 't' :: 'r' :: 'u' :: 'e' :: rest => readTokens (.scalar (.bool true) :: before) rest
  | 'f' :: 'a' :: 'l' :: 's' :: 'e' :: rest => readTokens (.scalar (.bool false) :: before) rest
  | c :: rest =>
    if isGap c then readTokens before rest
    else if c.isDigit || c = '-' then readNumeral before [c] rest
    else none
termination_by text => (text.length, 0)

/-- Reads the rest of a quoted text and the tokens after it. Control characters must be
escaped.
-/
def readQuoted (before : List Token) (pieces : List Piece) : List Char → Option (List Token)
  | [] => none
  | '"' :: rest => readTokens (.ofPieces pieces :: before) rest
  | '\\' :: 'u' :: a :: b :: c :: d :: rest =>
    match unit? a b c d with
    | some piece => readQuoted before (piece :: pieces) rest
    | none => none
  | '\\' :: c :: rest =>
    match escaped? c with
    | some c => readQuoted before (.char c :: pieces) rest
    | none => none
  | c :: rest =>
    if c = '\\' || c < ' ' then none else readQuoted before (.char c :: pieces) rest
termination_by text => (text.length, 0)

/-- Reads the rest of a numeral and the tokens after it. -/
def readNumeral (before : List Token) (characters : List Char)
    : List Char → Option (List Token)
  | [] => (Token.ofNumeral? characters).map fun token => (token :: before).reverse
  | c :: rest =>
    if isNumeralPart c then readNumeral before (c :: characters) rest
    else
      match Token.ofNumeral? characters with
      | some token => readTokens (token :: before) (c :: rest)
      | none => none
termination_by text => (text.length, 1)

end

def tokens? (text : String) : Option (List Token) :=
  readTokens [] text.toList

end RowFormula.Json
