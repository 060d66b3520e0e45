import BehaviorMachine.Text.Digit
/-!
TOML strings: basic ones with escapes and literal ones without, each on one line or on several. Line
breaks within a string are kept as they were written.
-/
namespace BehaviorMachine.Toml

/-- Characters that stand for themselves: all but control characters other than the tab. -/
def isPlainChar (c : Char) : Bool := c = '\t' || (0x20 ≤ c.toNat && c.toNat ≠ 0x7F)

def isSpace (c : Char) : Bool := c = ' ' || c = '\t'

/-- The text after a line break. -/
def afterNewline? : List Char → Option (List Char)
  | '\n' :: rest => some rest
  | '\r' :: '\n' :: rest => some rest
  | _ => none

/-- The character of a code point in hexadecimal digits. -/
def codePoint? (digits : List Char) : Option Char := do
  let n ← hexNumeral? digits
  if h : n.isValidChar then some (Char.ofNatAux n h) else none

/-- The character of an escape after its backslash, and the text after it. -/
def escape? : List Char → Option (Char × List Char)
  | 'b' :: rest => some ('\x08', rest)
  | 't' :: rest => some ('\t', rest)
  | 'n' :: rest => some ('\n', rest)
  | 'f' :: rest => some ('\x0c', rest)
  | 'r' :: rest => some ('\r', rest)
  | 'e' :: rest => some ('\x1b', rest)
  | '"' :: rest => some ('"', rest)
  | '\\' :: rest => some ('\\', rest)
  | 'x' :: rest =>
    if 2 ≤ rest.length then (codePoint? (rest.take 2)).map (·, rest.drop 2) else none
  | 'u' :: rest =>
    if 4 ≤ rest.length then (codePoint? (rest.take 4)).map (·, rest.drop 4) else none
  | 'U' :: rest =>
    if 8 ≤ rest.length then (codePoint? (rest.take 8)).map (·, rest.drop 8) else none
  | _ => none

/-- A basic string after its opening quote, and the text after it. The fuel is the length of the
text, and the characters are collected in reverse. -/
def basic? : Nat → List Char → List Char → Option (String × List Char)
  | fuel + 1, found, '\\' :: rest => do
    let (c, rest) ← escape? rest
    basic? fuel (c :: found) rest
  | _ + 1, found, '"' :: rest => some (.ofList found.reverse, rest)
  | fuel + 1, found, c :: rest => if isPlainChar c then basic? fuel (c :: found) rest else none
  | _, _, _ => none

/-- A literal string after its opening quote, and the text after it. -/
def literal? : List Char → List Char → Option (String × List Char)
  | found, '\'' :: rest => some (.ofList found.reverse, rest)
  | found, c :: rest => if isPlainChar c then literal? (c :: found) rest else none
  | _, [] => none

/-- The end of a string on several lines, after three quotes: up to two quotes more belong to the
string. -/
def closeLines (quote : Char) (found rest : List Char) : String × List Char :=
  let more := (rest.takeWhile (· = quote)).take 2
  (.ofList (found.reverse ++ more), rest.drop more.length)

/-- The text after blanks and line breaks. -/
def skipGap : List Char → List Char
  | ' ' :: rest => skipGap rest
  | '\t' :: rest => skipGap rest
  | '\n' :: rest => skipGap rest
  | '\r' :: '\n' :: rest => skipGap rest
  | rest => rest

/-- The text after the gap that a backslash opens at the end of a line. -/
def continued? (text : List Char) : Option (List Char) :=
  (afterNewline? (text.dropWhile isSpace)).map skipGap

/-- The text after a line break at its start, if there is one. -/
def skipFirstNewline (text : List Char) : List Char := (afterNewline? text).getD text

/-- A basic string on several lines after its opening quotes. -/
def basicLines? : Nat → List Char → List Char → Option (String × List Char)
  | _ + 1, found, '"' :: '"' :: '"' :: rest => some (closeLines '"' found rest)
  | fuel + 1, found, '\\' :: rest =>
    match continued? rest with
    | some rest => basicLines? fuel found rest
    | none => do
      let (c, rest) ← escape? rest
      basicLines? fuel (c :: found) rest
  | fuel + 1, found, '\r' :: '\n' :: rest => basicLines? fuel ('\n' :: '\r' :: found) rest
  | fuel + 1, found, c :: rest =>
    if isPlainChar c || c = '\n' then basicLines? fuel (c :: found) rest else none
  | _, _, _ => none

/-- A literal string on several lines after its opening quotes. -/
def literalLines? : List Char → List Char → Option (String × List Char)
  | found, '\'' :: '\'' :: '\'' :: rest => some (closeLines '\'' found rest)
  | found, '\r' :: '\n' :: rest => literalLines? ('\n' :: '\r' :: found) rest
  | found, c :: rest =>
    if isPlainChar c || c = '\n' then literalLines? (c :: found) rest else none
  | _, [] => none

/-- A string on one line, which may be a key too. -/
def quoted? : List Char → Option (String × List Char)
  | '"' :: rest => basic? (rest.length + 1) [] rest
  | '\'' :: rest => literal? [] rest
  | _ => none

def string? (text : List Char) : Option (String × List Char) :=
  match text with
  | '"' :: '"' :: '"' :: rest => basicLines? (rest.length + 1) [] (skipFirstNewline rest)
  | '\'' :: '\'' :: '\'' :: rest => literalLines? [] (skipFirstNewline rest)
  | _ => quoted? text

end BehaviorMachine.Toml
