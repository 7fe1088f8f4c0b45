import ShiftReduce.Assembly.Report

/-!
# Files and directories

A tree of files and directories, and what comes of the attempt to read the file that a path names.
A path is followed name by name, each looked up in the directory to which the names before it
lead, so that of two faults in a path the first one counts.
-/

namespace ShiftReduce.Assembly

/-- A file, or a directory with the names of what it holds. -/
inductive FileTree where
  | file (bytes : List UInt8)
  | directory (entries : List (String × FileTree))

/-- Why a path leads nowhere. -/
inductive PathError where
  /-- A directory has no such name. -/
  | missing
  /-- A name is to be looked up in a file. -/
  | notDirectory
  /-- A name, or the whole path, is longer than any can be. -/
  | tooLong
deriving DecidableEq, Repr

def PathError.message : PathError → String
  | .missing => "No such file or directory (os error 2)"
  | .notDirectory => "Not a directory (os error 20)"
  | .tooLong => "File name too long (os error 36)"

/-- A place in a tree: what is there, and the directories above it, the nearest one first. -/
structure Place where
  here : FileTree
  above : List FileTree := []

namespace Place

/-- The place with nothing above it. -/
def root (p : Place) : Place := ⟨p.above.getLast?.getD p.here, []⟩

/-- The directory above; the root is above itself. -/
def parent (p : Place) : Place :=
  match p.above with
  | [] => p
  | d :: above => ⟨d, above⟩

/-- Follow one name, of 255 bytes at the most. The empty name, which stands between two slashes
and after the last one, names the directory itself, as `.` does. -/
def follow (p : Place) (name : String) : Except PathError Place :=
  match p.here with
  | .file _ => .error .notDirectory
  | .directory entries =>
    if name = "" ∨ name = "." then .ok p
    else if name = ".." then .ok p.parent
    else if 255 < name.utf8ByteSize then .error .tooLong
    else
      match entries.lookup name with
      | none => .error .missing
      | some t => .ok ⟨t, p.here :: p.above⟩

/-- The names in a path, which slashes keep apart. -/
def names (path : String) : List String := (path.toList.splitOn '/').map String.ofList

/-- Follow a path of 4095 bytes at the most, from the root if it begins with a slash. -/
def followPath (p : Place) (path : String) : Except PathError Place :=
  if path = "" then .error .missing
  else if 4095 < path.utf8ByteSize then .error .tooLong
  else (names path).foldlM follow (if path.toList.head? = some '/' then p.root else p)

/-- Read the file at the end of a path. A directory can be opened, but not be read. -/
def read (p : Place) (path : String) : FileAnswer :=
  match p.followPath path with
  | .error e => .closed e.message
  | .ok ⟨.file bytes, _⟩ => .contents bytes
  | .ok ⟨.directory _, _⟩ => .unreadable "Is a directory (os error 21)"

example : names "/a//b/" = ["", "a", "", "b", ""] := by decide +kernel
example (above : List FileTree) : (⟨.directory [("a.s", .file [])], above⟩ : Place).followPath
    "b/../a.s" = .error .missing := by rfl
example (above : List FileTree) : (⟨.directory [("a.s", .file [])], above⟩ : Place).followPath
    "./a.s/" = .error .notDirectory := by rfl

end Place

end ShiftReduce.Assembly
