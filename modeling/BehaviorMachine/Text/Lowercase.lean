import BehaviorMachine.Text.CaseTable
/-!
Lower case of a text, letter by letter, with the two cases that look further: one capital letter
becomes a letter and a combining dot, and a capital sigma takes its final form at the end of a word.
-/
namespace BehaviorMachine

/-- The lower-case form of a letter in isolation. -/
def lowercaseLetter (c : Char) : List Char :=
  if c.toNat < 0x80 then [c.toLower]
  else if c = '\u0130' then ['i', '\u0307']
  else
    match lowercaseRuns.find? (·.covers c.toNat) with
    | some run => [.ofNat (c.toNat + run.offset).toNat]
    | none => [c]

/-- Does a cased letter come first, apart from characters that do not interrupt a word? -/
def meetsCased (text : List Char) : Bool :=
  match text.dropWhile isCaseIgnorable with
  | c :: _ => isCased c
  | [] => false

/-- Lower case of a text, given the characters before it, nearest first. -/
def lowercaseAfter (before : List Char) : List Char → List Char
  | [] => []
  | c :: rest =>
    let lower :=
      if c = 'Σ' then [if meetsCased before && !meetsCased rest then 'ς' else 'σ']
      else lowercaseLetter c
    lower ++ lowercaseAfter (c :: before) rest

def lowercase (text : String) : List Char := lowercaseAfter [] text.toList

/-- Does the pattern occur as a run of consecutive characters? -/
def occursIn (pattern : List Char) : List Char → Bool
  | [] => pattern.isEmpty
  | c :: rest => pattern.isPrefixOf (c :: rest) || occursIn pattern rest

/-- Equality up to the case of the letters A to Z. -/
def sameUpToAsciiCase (a b : String) : Bool :=
  a.toList.map Char.toLower = b.toList.map Char.toLower

end BehaviorMachine
