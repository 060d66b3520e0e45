import BehaviorMachine.Toml.Quoted
import BehaviorMachine.Toml.Scalar
/-!
Reading TOML documents. Arrays and inline tables may go over several lines, with comments, and end in
a comma. Loops take fuel from the length of the text, of which each round consumes a part.
-/
namespace BehaviorMachine.Toml

def skipSpaces (text : List Char) : List Char := text.dropWhile isSpace

/-- The text after a comment, or the same text. -/
def skipComment : List Char → List Char
  | '#' :: rest => rest.dropWhile isPlainChar
  | text => text

/-- The text after the end of a line, where a comment may stand. -/
def endLine? (text : List Char) : Option (List Char) :=
  match skipComment (skipSpaces text) with
  | [] => some []
  | rest => afterNewline? rest

/-- Skip blanks, comments and line breaks. Whether the text starts within a comment is told. -/
def skipLines (comment : Bool) : List Char → List Char
  | '\n' :: rest => skipLines false rest
  | '\r' :: '\n' :: rest => skipLines false rest
  | '#' :: rest => skipLines true rest
  | c :: rest =>
    if isSpace c || (comment && isPlainChar c) then skipLines comment rest else c :: rest
  | [] => []

def isBareKeyChar (c : Char) : Bool := c.isAlphanum || c = '-' || c = '_'

/-- One part of a key. -/
def keyPart? (text : List Char) : Option (String × List Char) :=
  match quoted? text with
  | some part => some part
  | none =>
    let bare := text.takeWhile isBareKeyChar
    if bare.isEmpty then none else some (.ofList bare, text.drop bare.length)

/-- The greatest number of parts of a key. -/
def keyLimit : Nat := 80

/-- A key of at most so many parts, with blanks around its dots. -/
def keyWithin? : Nat → List Char → Option (Key × List Char)
  | 0, _ => none
  | limit + 1, text => do
    let (name, rest) ← keyPart? (skipSpaces text)
    match skipSpaces rest with
    | '.' :: rest =>
      let (key, rest) ← keyWithin? limit rest
      return (⟨name :: key.path, key.name⟩, rest)
    | rest => return (⟨[], name⟩, rest)

def key? : List Char → Option (Key × List Char) := keyWithin? keyLimit

/-- The items of an array, after the bracket or a comma. -/
def items? (value? : List Char → Option (Toml × List Char)) :
    Nat → List Toml → List Char → Option (Toml × List Char)
  | 0, _, _ => none
  | fuel + 1, found, text =>
    match skipLines false text with
    | ']' :: rest => some (.array found.reverse, rest)
    | text => do
      let (value, rest) ← value? text
      match skipLines false rest with
      | ',' :: rest => items? value? fuel (value :: found) rest
      | ']' :: rest => some (.array (value :: found).reverse, rest)
      | _ => none

/-- A key and its value; what may stand around the equals sign is skipped. -/
def assignment? (skip : List Char → List Char) (value? : List Char → Option (Toml × List Char))
    (text : List Char) : Option (Key × Toml × List Char) := do
  let (key, rest) ← key? text
  match skip rest with
  | '=' :: rest =>
    let (value, rest) ← value? (skip rest)
    return (key, value, rest)
  | _ => none

/-- The entries of an inline table, after the brace or a comma. -/
def entries? (value? : List Char → Option (Toml × List Char)) :
    Nat → Entries → List Char → Option (Toml × List Char)
  | 0, _, _ => none
  | fuel + 1, found, text =>
    match skipLines false text with
    | '}' :: rest => some (.table .inline found, rest)
    | text => do
      let (key, value, rest) ← assignment? (skipLines false) value? text
      let found ← assign key value found
      match skipLines false rest with
      | ',' :: rest => entries? value? fuel found rest
      | '}' :: rest => some (.table .inline found, rest)
      | _ => none

/-- The deepest nesting of arrays and inline tables that is read. -/
def nestingLimit : Nat := 80

/-- A value and the text after it, with so many levels of nesting left. -/
def value? : Nat → List Char → Option (Toml × List Char)
  | depth + 1, '[' :: rest => items? (value? depth) (rest.length + 1) [] rest
  | depth + 1, '{' :: rest => entries? (value? depth) (rest.length + 1) [] rest
  | _, text =>
    match text with
    | '"' :: _ | '\'' :: _ => (string? text).map fun (s, rest) => (.string s, rest)
    | _ => scalar? text

/-- A line that is not blank, from its first character on. -/
def line? (text : List Char) : Option (Line × List Char) :=
  match text with
  | '[' :: '[' :: rest => do
    let (key, ']' :: ']' :: rest) ← key? rest | none
    return (.element key, rest)
  | '[' :: rest => do
    let (key, ']' :: rest) ← key? rest | none
    return (.table key, rest)
  | _ => do
    let (key, value, rest) ← assignment? skipSpaces (value? nestingLimit) text
    return (.assignment key value, rest)

/-- The lines of a document that say something. -/
def lines? : Nat → List Char → Option (List Line)
  | 0, text => if text.isEmpty then some [] else none
  | fuel + 1, text =>
    match skipLines false text with
    | [] => some []
    | text => do
      let (line, rest) ← line? text
      return line :: (← lines? fuel (← endLine? rest))

/-- The content of a document. A byte order mark at its start is skipped. -/
def read? (text : String) : Option Entries := do
  let text := text.toList
  let text := if text.head? = some '\uFEFF' then text.drop 1 else text
  ofLines? [] [] (← lines? (text.length + 1) text)

end BehaviorMachine.Toml
