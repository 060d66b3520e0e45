import BehaviorMachine.Text.Digit
import BehaviorMachine.Toml.Basic
import BehaviorMachine.Toml.Quoted
/-!
TOML values without delimiters: booleans, integers, floats, dates and times. A date or a time has to
exist. Numbers are kept as they were written: a decimal integer may go on, after an underscore, with
characters that are no digits of its base, even with words after tabs, and then no integer is wanted
of it.
-/
namespace BehaviorMachine.Toml

/-- Each underscore stands between two digits. It is told whether a digit comes before the text. -/
def spaced (digit : Char → Bool) (afterDigit : Bool) : List Char → Bool
  | [] => true
  | '_' :: rest => afterDigit && rest.head?.any digit && spaced digit false rest
  | c :: rest => spaced digit (digit c) rest

/-- The text after a sign, or the same text. -/
def unsigned : List Char → List Char
  | '+' :: rest => rest
  | '-' :: rest => rest
  | rest => rest

def isDigitOf (base : Nat) (c : Char) : Bool := (hexValue? c).any (· < base)

/-- The text of a number without its underscores. -/
def withoutSpaces (text : List Char) : String := .ofList (text.filter (· ≠ '_'))

/-- An integer after the mark of its base. -/
def marked? (base : Nat) (digits : List Char) : Option Toml :=
  if (digits.all fun c => isDigitOf base c || c = '_') && spaced (isDigitOf base) false digits then
    some (.integer base (withoutSpaces digits))
  else none

/-- Digits and underscores, with at least one digit. -/
def isDigits (text : List Char) : Bool :=
  (text.all fun c => isDigit c || c = '_') && text.any isDigit

/-- The exponent of a float after its mark. -/
def isExponent (text : List Char) : Bool := isDigits (unsigned text)

/-- The part of a float after its point. -/
def isFraction (text : List Char) : Bool :=
  let mark := fun c => c = 'e' || c = 'E'
  isDigits (text.takeWhile (!mark ·)) &&
    match text.dropWhile (!mark ·) with
    | [] => true
    | _ :: exponent => isExponent exponent

/-- A float without its sign. A leading zero stands alone before the point. -/
def isFloat (text : List Char) : Bool :=
  let whole := text.takeWhile fun c => isDigit c || c = '_'
  isDigits whole && (whole.head? ≠ some '0' || (whole.filter isDigit).length = 1) &&
    match text.drop whole.length with
    | '.' :: rest => isFraction rest
    | 'e' :: rest => isExponent rest
    | 'E' :: rest => isExponent rest
    | _ => false

/-- A decimal integer without its sign: digits, perhaps with an underscore and more after them, but
no blank. A leading zero stands alone. -/
def isDecimal (text : List Char) : Bool :=
  (text = ['0'] || text.head?.any (· ≠ '0')) && !text.contains ' ' &&
    match text.dropWhile isDigit with
    | [] => true
    | c :: _ => c = '_'

/-- A decimal number with its sign. -/
def decimal? (text : List Char) : Option Toml :=
  let body := unsigned text
  if body.any fun c => c = '.' || c = 'e' || c = 'E' then
    if isFloat body && spaced isDigit false body then some (.float (.ofList text)) else none
  else if isDecimal body && spaced (isDigitOf 16) false body then
    some (.integer 10 (withoutSpaces text))
  else none

/-- The integer that a numeral stands for, if it has digits and all of them belong to its base. -/
def integerOf? (base : Nat) (numeral : String) : Option Int :=
  let text := numeral.toList
  let digits := unsigned text
  if !digits.isEmpty && digits.all (isDigitOf base) then
    let n : Int := numeralValue base digits
    some (if text.head? = some '-' then -n else n)
  else none

/-- A number of so many digits within bounds, and the text after it. -/
def field? (count low high : Nat) (text : List Char) : Option (Nat × List Char) :=
  let digits := text.take count
  let n := numeralValue 10 digits
  if digits.length = count ∧ digits.all isDigit ∧ low ≤ n ∧ n ≤ high then
    some (n, text.drop count)
  else none

def isLeap (year : Nat) : Bool := year % 4 = 0 && (year % 100 ≠ 0 || year % 400 = 0)

def daysIn (year month : Nat) : Nat :=
  if month = 2 then if isLeap year then 29 else 28
  else if month ∈ [4, 6, 9, 11] then 30
  else 31

/-- The text after a date. -/
def afterDate? (text : List Char) : Option (List Char) := do
  let (year, '-' :: rest) ← field? 4 0 9999 text | none
  let (month, '-' :: rest) ← field? 2 1 12 rest | none
  let (_, rest) ← field? 2 1 (daysIn year month) rest
  return rest

/-- The text after the seconds of a time, which may have a fraction. -/
def afterSeconds? (text : List Char) : Option (List Char) := do
  let (_, rest) ← field? 2 0 60 text
  match rest with
  | '.' :: rest => if rest.head?.any isDigit then some (rest.dropWhile isDigit) else none
  | _ => some rest

/-- The text after a time, which may end with the minutes. -/
def afterTime? (text : List Char) : Option (List Char) := do
  let (_, ':' :: rest) ← field? 2 0 23 text | none
  let (_, rest) ← field? 2 0 59 rest
  match rest with
  | ':' :: rest => afterSeconds? rest
  | _ => some rest

/-- The offset of a time from universal time; there may be none. -/
def isOffset : List Char → Bool
  | [] | ['Z'] | ['z'] => true
  | c :: rest =>
    (c = '+' || c = '-') &&
      match field? 2 0 23 rest with
      | some (_, ':' :: rest) => (field? 2 0 59 rest).any (·.2.isEmpty)
      | _ => false

/-- A date, a time, or a date with a time after a letter or a blank. -/
def isMoment (text : List Char) : Bool :=
  match afterDate? text with
  | some [] => true
  | some (c :: rest) =>
    (c = 'T' || c = 't' || c = ' ') && (afterTime? rest).any isOffset
  | none => afterTime? text = some []

/-- The value that some words with the gaps between them are. -/
def scalarOf? (text : List Char) : Option Toml :=
  match text with
  | ['t', 'r', 'u', 'e'] => some (.boolean true)
  | ['f', 'a', 'l', 's', 'e'] => some (.boolean false)
  | '0' :: 'x' :: digits => marked? 16 digits
  | '0' :: 'o' :: digits => marked? 8 digits
  | '0' :: 'b' :: digits => marked? 2 digits
  | _ =>
    if unsigned text ∈ [['i', 'n', 'f'], ['n', 'a', 'n']] then some (.float (.ofList text))
    else if isMoment text then some (.moment (.ofList text))
    else decimal? text

/-- The characters that end a word. -/
def endsWord (c : Char) : Bool :=
  c ∈ ['=', ',', '[', ']', '{', '}', '#', ' ', '\t', '\r', '\n']

/-- The text goes on with a word and not with a quoted string. -/
def startsWord (text : List Char) : Bool :=
  text.head?.any fun c => !endsWord c && c ≠ '"' && c ≠ '\''

/-- The words at the start of the text with the gaps between them, and the text after the last one. -/
def spanWords : List Char → List Char × List Char
  | [] => ([], [])
  | c :: rest =>
    if !endsWord c || isSpace c && startsWord (rest.dropWhile isSpace) then
      let (words, rest) := spanWords rest
      (c :: words, rest)
    else ([], c :: rest)

/-- A value without delimiters and the text after it. All words up to the next mark are one value. -/
def scalar? (text : List Char) : Option (Toml × List Char) :=
  let (words, rest) := spanWords text
  (scalarOf? words).map (·, rest)

end BehaviorMachine.Toml
