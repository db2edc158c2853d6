import BasicScript.Path

/-! A tree of files, as far as programs can see it: which paths lead to a file or a directory, what
a file holds, and what a path is called once its detours are gone. -/

set_option autoImplicit false

namespace BasicScript

inductive Content where
  | directory
  | text (text : String)
  | binary
  deriving DecidableEq, Inhabited

structure FileTree where
  /-- The steps from the root to the directory that relative paths start in. -/
  workingDirectory : List String
  /-- What lies where; the directories above an entry exist with it. -/
  entries : List (List String × Content)
  deriving DecidableEq, Inhabited

namespace FileTree

def isAbove (upper lower : List String) : Bool :=
  upper.isPrefixOf lower && upper.length < lower.length

def isDirectoryAt (t : FileTree) (steps : List String) : Bool :=
  steps.isEmpty || steps.isPrefixOf t.workingDirectory ||
    t.entries.any fun (place, content) =>
      (place == steps && content == .directory) || isAbove steps place

def existsAt (t : FileTree) (steps : List String) : Bool :=
  t.isDirectoryAt steps || t.entries.any fun entry => entry.1 == steps

/-- Follow the parts of a path from a place. Every part needs a directory to start from, so a path
through a file or through nothing leads nowhere. -/
def follow (t : FileTree) : List String → List String → Option (List String)
  | place, [] => some place
  | place, part :: rest =>
    if !t.isDirectoryAt place then none
    else if part = ".." then t.follow place.dropLast rest
    else if Path.isStep part then
      if t.existsAt (place ++ [part]) then t.follow (place ++ [part]) rest else none
    else t.follow place rest

def locate? (t : FileTree) (p : Path) : Option (List String) :=
  if p.text.isEmpty then none
  else t.follow (if p.isAbsolute then [] else t.workingDirectory) p.split

def contentAt (t : FileTree) (steps : List String) : Content :=
  ((t.entries.find? fun entry => entry.1 == steps).map Prod.snd).getD .directory

def content? (t : FileTree) (p : Path) : Option Content := t.contentAt <$> t.locate? p

def isFile (t : FileTree) (p : Path) : Bool := (t.content? p).any (· != .directory)

/-- The absolute path without detours to what exists; any other path stays as it is. -/
def canonical (t : FileTree) (p : Path) : Path :=
  match t.locate? p with
  | some steps => ⟨"/" ++ "/".intercalate steps⟩
  | none => p

def read (t : FileTree) (p : Path) : Except String String :=
  match t.content? p with
  | some (.text text) => .ok text
  | some .binary => .error "stream did not contain valid UTF-8"
  | some .directory => .error "Is a directory (os error 21)"
  | none => .error "No such file or directory (os error 2)"

end FileTree

end BasicScript
