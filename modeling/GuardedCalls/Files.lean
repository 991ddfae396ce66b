/-
GuardedCalls.Files — trees of files, and what a path leads to in one.

* `FileFault` — why a file cannot be read.
* `FileTree` — a file with its bytes, or a directory with what it holds.
* `FileTree.follow` — one step of a path. It keeps the directories that it
  came through, so that `..` leads back; at the root it leads nowhere.
* `Files` — a tree and a place in it that paths begin at unless they begin
  with a slash; `Files.read` — the bytes at a path, or the first fault on
  the way.
-/

namespace GuardedCalls

/-- Why a file cannot be read. -/
inductive FileFault
  /-- Nothing is there. -/
  | notFound
  /-- The path goes on behind a file. -/
  | notDirectory
  /-- It is a directory. -/
  | directory
  /-- The path, or a name in it, is too long. -/
  | tooLong
  /-- The path holds a character that no path can hold. -/
  | notPath
  /-- Its bytes are no text. -/
  | notText
  deriving DecidableEq, Repr

/-- The wording of a fault. -/
def FileFault.message : FileFault → String
  | .notFound => "No such file or directory (os error 2)"
  | .notDirectory => "Not a directory (os error 20)"
  | .directory => "Is a directory (os error 21)"
  | .tooLong => "File name too long (os error 36)"
  | .notPath => "file name contained an unexpected NUL byte"
  | .notText => "stream did not contain valid UTF-8"

/-- A tree of files. -/
inductive FileTree
  /-- A file with its bytes. -/
  | file (bytes : List UInt8)
  /-- A directory with what it holds, by name. -/
  | directory (entries : List (String × FileTree))

namespace FileTree

/-- The most bytes in a name. -/
def nameLimit : Nat := 255

/-- One step from a tree that was reached through some directories, the
last one first. -/
def follow (name : String) : FileTree × List FileTree →
    Except FileFault (FileTree × List FileTree)
  | (.file _, _) => .error .notDirectory
  | (.directory entries, above) =>
    if name = "" ∨ name = "." then .ok (.directory entries, above)
    else if name = ".." then
      match above with
      | [] => .ok (.directory entries, [])
      | parent :: above => .ok (parent, above)
    else if nameLimit < name.utf8ByteSize then .error .tooLong
    else
      match entries.lookup name with
      | none => .error .notFound
      | some tree => .ok (tree, .directory entries :: above)

end FileTree

/-- A tree, and where paths begin. -/
structure Files where
  /-- The tree. -/
  root : FileTree
  /-- Where a path begins that does not begin with a slash. -/
  here : FileTree

namespace Files

/-- The fewest bytes of a path that is too long. -/
def pathLimit : Nat := 4096

/-- Where a path begins. The place for paths without a slash at their
front lies right below the root. -/
def beginning (files : Files) (path : String) : FileTree × List FileTree :=
  if path.startsWith "/" then (files.root, []) else (files.here, [files.root])

/-- The bytes at a path. An empty name stands for no step, but only a
directory has anything behind a slash. -/
def read (files : Files) (path : String) : Except FileFault (List UInt8) := do
  if '\x00' ∈ path.toList then throw .notPath
  if path = "" then throw .notFound
  if pathLimit ≤ path.utf8ByteSize then throw .tooLong
  let (tree, _) ← (path.splitOn "/").foldlM (fun place name => FileTree.follow name place)
    (files.beginning path)
  match tree with
  | .file bytes => return bytes
  | .directory _ => throw .directory

end Files

end GuardedCalls
