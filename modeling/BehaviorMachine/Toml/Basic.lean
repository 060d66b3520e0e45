/-!
TOML values, and how the tables of a document are put together. A table is defined once: by its
header, by dotted keys, or inline. What defined it decides how it may be extended.
-/
namespace BehaviorMachine

/-- How a table came to be. -/
inductive Toml.TableKind where
  /-- By a header of its own. -/
  | header
  /-- As a part of the header of another table. -/
  | implied
  /-- As a part of a dotted key. -/
  | dotted
  /-- As a value. -/
  | inline
  deriving DecidableEq

inductive Toml where
  | string (s : String)
  /-- An integer in some base, as it was written but without underscores. -/
  | integer (base : Nat) (numeral : String)
  | boolean (b : Bool)
  /-- A float as it was written. -/
  | float (text : String)
  /-- A date, a time, or both, as it was written. -/
  | moment (text : String)
  | array (items : List Toml)
  | table (kind : Toml.TableKind) (entries : List (String × Toml))
  /-- The tables that were defined by repeated headers, newest first. -/
  | elements (tables : List (List (String × Toml)))

namespace Toml

instance : Inhabited Toml := ⟨.boolean false⟩

/-- The content of a table, in the order of definition. -/
abbrev Entries := List (String × Toml)

def find? (name : String) (entries : Entries) : Option Toml :=
  (entries.find? (·.1 = name)).map Prod.snd

/-- Replace the value of a key. -/
def replace (name : String) (value : Toml) (entries : Entries) : Entries :=
  entries.map fun e => if e.1 = name then (name, value) else e

/-- Add a key that is not there yet. -/
def add (name : String) (value : Toml) (entries : Entries) : Option Entries :=
  if (find? name entries).isSome then none else some (entries ++ [(name, value)])

/-- May a dotted key, or a header, go through a table? -/
def TableKind.admits (dotted : Bool) : TableKind → Bool
  | .header => !dotted
  | .implied => true
  | .dotted => true
  | .inline => false

/-- Change the table at the end of a path of keys. Tables that are missing on the way are added. -/
def inside (dotted : Bool) (change : Entries → Option Entries) :
    List String → Entries → Option Entries
  | [], entries => change entries
  | name :: path, entries =>
    match find? name entries with
    | none =>
      (inside dotted change path []).map fun inner =>
        entries ++ [(name, .table (if dotted then .dotted else .implied) inner)]
    | some (.table kind inner) =>
      if kind.admits dotted then
        (inside dotted change path inner).map fun inner => replace name (.table kind inner) entries
      else none
    | some (.elements (newest :: rest)) =>
      if dotted then none
      else
        (inside dotted change path newest).map fun newest =>
          replace name (.elements (newest :: rest)) entries
    | some _ => none

/-- A key with the keys that lead to its table. -/
structure Key where
  path : List String
  name : String

/-- Define the value of a key, which may be dotted. -/
def assign (key : Key) (value : Toml) : Entries → Option Entries :=
  inside true (add key.name value) key.path

/-- Define a table by its header. -/
def openTable (key : Key) : Entries → Option Entries :=
  inside false
    (fun entries =>
      match find? key.name entries with
      | none => add key.name (.table .header []) entries
      | some (.table .implied inner) => some (replace key.name (.table .header inner) entries)
      | some _ => none)
    key.path

/-- Define a further table of a list by its header. -/
def openElement (key : Key) : Entries → Option Entries :=
  inside false
    (fun entries =>
      match find? key.name entries with
      | none => add key.name (.elements [[]]) entries
      | some (.elements tables) => some (replace key.name (.elements ([] :: tables)) entries)
      | some _ => none)
    key.path

/-- What a line of a document says. -/
inductive Line where
  | table (key : Key)
  | element (key : Key)
  | assignment (key : Key) (value : Toml)

/-- The content of a document. Assignments belong to the table of the last header. -/
def ofLines? (header : List String) (entries : Entries) : List Line → Option Entries
  | [] => some entries
  | .table key :: rest => do ofLines? (key.path ++ [key.name]) (← openTable key entries) rest
  | .element key :: rest => do ofLines? (key.path ++ [key.name]) (← openElement key entries) rest
  | .assignment key value :: rest => do
    ofLines? header (← inside false (assign key value) header entries) rest

end Toml

end BehaviorMachine
