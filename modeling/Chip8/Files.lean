import Chip8.Log
import Chip8.Rom

/-!
# Directories and files

A directory tree as a program sees it, with paths that are walked name by name: to make a directory,
to write a file and to read a ROM. Each name leads on from the directory that the names before it
have reached, so `a/../b` needs `a` and names what `b` names.

The program's own directory is one among those for temporary files, and empty at first. Around it
stand the usual directories of a machine, of which nothing is known but what was put there.
-/

namespace Chip8
set_option autoImplicit false

/-- The names that lead from the root to a directory or a file. -/
abbrev Location := List String

namespace Location

def root : Location := []

/-- Where a path starts that does not start at the root. No path can name it by its last name. -/
def current : Location := ["tmp", ""]

/-- Takes every byte that is written to it and has none to read. -/
def nullDevice : Location := ["dev", "null"]

def child (l : Location) (name : String) : Location := l ++ [name]

/-- The directory that holds it. The root holds itself. -/
def parent (l : Location) : Location := l.dropLast

end Location

/-- The newest file of a location comes first. -/
structure FileTree where
  directories : List Location
  files : List (Location × Array UInt8)

namespace FileTree

/-- The bytes that a name may have. -/
def nameLimit : Nat := 255

def pathLimit : Nat := 4095

def usual : List Location :=
  [.root, ["bin"], ["boot"], ["dev"], ["dev", "shm"], ["etc"], ["home"], ["lib"], ["media"], ["mnt"],
    ["opt"], ["proc"], ["root"], ["run"], ["sbin"], ["srv"], ["sys"], ["tmp"], ["usr"],
    ["usr", "bin"], ["usr", "lib"], ["usr", "local"], ["usr", "sbin"], ["usr", "share"], ["var"],
    ["var", "cache"], ["var", "lib"], ["var", "log"], ["var", "spool"], ["var", "tmp"]]

def fresh : FileTree := ⟨.current :: usual, []⟩

def file? (t : FileTree) (l : Location) : Option (Array UInt8) :=
  if l == .nullDevice then some #[] else t.files.lookup l

/-- What a walk along a path has come to. -/
inductive Place where
  | directory (location : Location)
  | file (bytes : Array UInt8)

def enter (t : FileTree) (place : Place) (name : String) : Except ReadError Place :=
  match place with
  | .file _ => .error .notADirectory
  | .directory l =>
    if name == "." then .ok place
    else if name == ".." then .ok (.directory l.parent)
    else if nameLimit < name.utf8ByteSize then .error .nameTooLong
    else if t.directories.contains (l.child name) then .ok (.directory (l.child name))
    else match t.file? (l.child name) with
      | some bytes => .ok (.file bytes)
      | none => .error .notFound

/-- The names in a path, without empty ones. -/
def names (path : String) : List String := (path.splitOn "/").filter (· != "")

def start (path : String) : Except ReadError Location :=
  if path.contains '\x00' then .error .nulInName
  else if pathLimit < path.utf8ByteSize then .error .nameTooLong
  else if path.isEmpty then .error .notFound
  else if path.startsWith "/" then .ok .root
  else .ok .current

def walk (t : FileTree) (l : Location) (names : List String) : Except ReadError Place :=
  names.foldlM t.enter (.directory l)

/-- The bytes of the file that a path names. A path that ends in a slash names a directory. -/
def read (t : FileTree) (path : String) : Except ReadError (Array UInt8) := do
  match ← t.walk (← start path) (names path) with
  | .file bytes => if path.endsWith "/" then .error .notADirectory else .ok bytes
  | .directory _ => .error .isADirectory

/-- Goes down along names from a directory and makes those that are missing, as far as it can. -/
def makeDirectories (t : FileTree) (l : Location) : List String → FileTree
  | [] => t
  | name :: rest =>
    match t.enter (.directory l) name with
    | .ok (.directory next) => t.makeDirectories next rest
    | .error .notFound =>
      let made := l.child name
      { t with directories := made :: t.directories }.makeDirectories made rest
    | _ => t

def makeDirectory (t : FileTree) (path : String) : FileTree :=
  match start path with
  | .ok l => t.makeDirectories l (names path)
  | .error _ => t

/-- The location of the file that a path names, whether it is there or could be written there. -/
def fileLocation (t : FileTree) (path : String) : Option Location := do
  let l ← (start path).toOption
  let name ← (names path).getLast?
  match t.walk l (names path).dropLast with
  | .ok (.directory above) =>
    match t.enter (.directory above) name with
    | .ok (.file _) | .error .notFound =>
      if path.endsWith "/" then none else some (above.child name)
    | _ => none
  | _ => none

/-- Adds a file, or replaces its bytes. A path that can name no file changes nothing. -/
def writeFile (t : FileTree) (path : String) (bytes : Array UInt8) : FileTree :=
  match t.fileLocation path with
  | some l => { t with files := (l, bytes) :: t.files }
  | none => t

end FileTree

namespace Rom

/-- A ROM as the file system gave it, refused if it is too large. -/
def ofFile (path : String) : Except ReadError (Array UInt8) → Except RomError Rom
  | .error cause => .error (.unreadable path cause)
  | .ok bytes =>
    if bytes.size ≤ capacity then .ok bytes else .error (.tooLarge bytes.size capacity)

def readRecord (path : String) (rom : Rom) : Record :=
  ⟨.info, s!"Read {rom.size} bytes from {path}"⟩

end Rom
end Chip8
