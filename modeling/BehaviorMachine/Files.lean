import BehaviorMachine.Text.Utf8
/-!
Programs that read and write files, and the finite trees of files that they can be run on. Absolute
paths are followed from the root of the tree, all others from its working directory.
-/
namespace BehaviorMachine

/-- The name of a file or directory: bytes, which need not be text. -/
abbrev FileName := List UInt8

/-- A path to a file: names with slashes between them. -/
structure FilePath where
  bytes : List UInt8
  deriving DecidableEq

namespace FilePath

def ofString (s : String) : FilePath := ⟨s.toUTF8.data.toList⟩

instance : Coe String FilePath := ⟨ofString⟩

def slash : UInt8 := 0x2F

def names (p : FilePath) : List FileName := p.bytes.splitOn slash

/-- A path that begins at the root. -/
def isAbsolute (p : FilePath) : Bool := p.bytes.head? = some slash

/-- The path as it is printed. -/
def text (p : FilePath) : String := lossyText p.bytes

end FilePath

/-- What reading a file gives. -/
inductive FileContent where
  | bytes (content : ByteArray)
  | missing
  /-- There is something, but no file that can be read. -/
  | unreadable

/-- A computation that reads and writes files by path. A write tells whether it succeeded. -/
inductive FileProgram (α : Type) where
  | done (result : α)
  | read (path : FilePath) (next : FileContent → FileProgram α)
  | write (path : FilePath) (content : ByteArray) (next : Bool → FileProgram α)

namespace FileProgram

variable {α γ : Type}

def bind (p : FileProgram α) (f : α → FileProgram γ) : FileProgram γ :=
  match p with
  | .done result => f result
  | .read path next => .read path fun content => (next content).bind f
  | .write path content next => .write path content fun written => (next written).bind f

instance : Monad FileProgram where
  pure := .done
  bind := bind

end FileProgram

/-- Files by the names on the way to them from the root. -/
structure FileTree where
  files : List (List FileName × ByteArray)
  workingDirectory : List FileName

namespace FileTree

/-- The longest name of a file or directory, in bytes. -/
def nameLimit : Nat := 255

/-- The longest path, in bytes. -/
def pathLimit : Nat := 4095

/-- The name of a directory in itself. -/
def dot : FileName := [0x2E]

/-- The name of the directory above. -/
def dotDot : FileName := [0x2E, 0x2E]

/-- The working directory is one, with all that it lies in, and so is everything that a file lies in. -/
def isDirectory (t : FileTree) (place : List FileName) : Bool :=
  place.isPrefixOf t.workingDirectory ||
    t.files.any fun f => place.length < f.1.length && f.1.take place.length = place

/-- Follow names from a place. All but the last place on the way have to be directories, and above the
root is the root. -/
def follow? (t : FileTree) (place : List FileName) : List FileName → Option (List FileName)
  | [] => some place
  | name :: rest =>
    if t.isDirectory place then
      if name = [] ∨ name = dot then t.follow? place rest
      else if name = dotDot then t.follow? place.dropLast rest
      else if name.length ≤ nameLimit then t.follow? (place ++ [name]) rest
      else none
    else none

/-- The place of a path, which need not hold anything. -/
def place? (t : FileTree) (path : FilePath) : Option (List FileName) :=
  if path.bytes = [] ∨ pathLimit < path.bytes.length then none
  else t.follow? (if path.isAbsolute then [] else t.workingDirectory) path.names

def read (t : FileTree) (path : FilePath) : FileContent :=
  match t.place? path with
  | none => .missing
  | some place =>
    match t.files.find? (·.1 = place) with
    | some file => .bytes file.2
    | none => if t.isDirectory place then .unreadable else .missing

/-- Put a file in place of another one. A directory cannot be replaced. -/
def write? (t : FileTree) (path : FilePath) (content : ByteArray) : Option FileTree :=
  match t.place? path with
  | none => none
  | some place =>
    if t.isDirectory place then none
    else some { t with files := (place, content) :: t.files.filter (·.1 ≠ place) }

end FileTree

/-- Carry out a program on a tree of files. -/
def FileProgram.run {α : Type} : FileProgram α → FileTree → α × FileTree
  | .done result, t => (result, t)
  | .read path next, t => (next (t.read path)).run t
  | .write path content next, t =>
    match t.write? path content with
    | some written => (next true).run written
    | none => (next false).run t

end BehaviorMachine
