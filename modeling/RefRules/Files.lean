import RefRules.Path
import RefRules.View

/-!
# RefRules — files

What paths read as. A `Files` answers every path with the bytes of a file or with the reason why
there are none. A `FileTree` holds files in directories and resolves the segments of a path one
after the other; other than for the comparison of paths, a parent segment leads back here.

Main definitions:

* `FileTree.read` — what a path reads as, seen from the root of the tree;
* `Files.readText` — the text of a file.
-/

namespace RefRules

/-! ## Errors -/

/-- Why a path does not read as a file. -/
inductive FileError where
  | absent
  | notFound
  | notDirectory
  | isDirectory
  | notMappable
  | nameTooLong
  | nulInName
  | notUtf8
  | unread
  | other (text : String)
  deriving DecidableEq

def FileError.message : FileError → String
  | absent => "no such file"
  | notFound => "No such file or directory (os error 2)"
  | notDirectory => "Not a directory (os error 20)"
  | isDirectory => "Is a directory (os error 21)"
  | notMappable => "No such device (os error 19)"
  | nameTooLong => "File name too long (os error 36)"
  | nulInName => "file name contained an unexpected NUL byte"
  | notUtf8 => "stream did not contain valid UTF-8"
  | unread => "file has not been read"
  | other text => text

/-- There is no such file, as far as the error tells. -/
def FileError.isMissing : FileError → Bool
  | absent | notFound | notDirectory | nameTooLong | nulInName => true
  | _ => false

/-! ## Files -/

/-- What paths read as. No chain of files that name each other by ever new paths is longer than
`depth`. -/
structure Files where
  read : Path → Except FileError ByteArray
  depth : Nat

namespace Files

/-- The text of a file. -/
def readText (fs : Files) (p : Path) : Except FileError String :=
  match fs.read p with
  | .error e => .error e
  | .ok bytes =>
    match String.fromUTF8? bytes with
    | some text => .ok text
    | none => .error .notUtf8

/-- The bytes of a file as memory; a directory cannot be mapped. -/
def readStore (fs : Files) (p : Path) : Except FileError Store :=
  match fs.read p with
  | .ok bytes => .ok bytes.data
  | .error .isDirectory => .error .notMappable
  | .error e => .error e

/-- There is a file or a directory at the path. -/
def present (fs : Files) (p : Path) : Bool :=
  match fs.read p with
  | .ok _ => true
  | .error e => !e.isMissing

/-- The longest path, in bytes. -/
def pathLimit : Nat := 4095

/-- The longest name of a file or directory, in bytes. -/
def nameLimit : Nat := 255

/-- A bound for `count` files: on a chain of ever new paths the directories do not get shorter, and
each of them has at most `count` files. -/
def depthOf (count : Nat) : Nat :=
  (count + 1) * (pathLimit + 2)

/-- The files that are known so far, by the texts of their paths. -/
def ofKnown (known : List (Path × Except FileError ByteArray)) : Files where
  read p := (known.lookup p).getD (.error .unread)
  depth := depthOf known.length

end Files

/-! ## Trees -/

/-- The name of a file or directory. -/
abbrev Name := List Char

/-- Files by the names of the directories they lie in and their own. -/
abbrev FileTree := List (List Name × ByteArray)

namespace FileTree

def fileAt? (t : FileTree) (names : List Name) : Option ByteArray :=
  t.lookup names

/-- Some file lies below these names. -/
def isDirectory (t : FileTree) (names : List Name) : Bool :=
  t.any fun file => names.isPrefixOf file.1 && names.length < file.1.length

/-- The directory around a directory; around the root of the tree nothing is known. -/
def parentOf : List Name → Option (List Name)
  | [] => none
  | names => some names.dropLast

def isTooLong (name : Name) : Bool :=
  Files.nameLimit < (String.ofList name).utf8ByteSize

/-- Follows segments from a directory, or from outside of the tree, where no name is found. -/
def follow (t : FileTree) : Option (List Name) → List Name → Except FileError ByteArray
  | _, [] => .error .isDirectory
  | directory, segment :: rest =>
    if Path.isSilent segment then t.follow directory rest
    else if segment = ['.', '.'] then t.follow (directory.bind parentOf) rest
    else if isTooLong segment then .error .nameTooLong
    else
      match directory with
      | none => .error .notFound
      | some names =>
        let names := names ++ [segment]
        match t.fileAt? names with
        | some bytes => if rest.isEmpty then .ok bytes else .error .notDirectory
        | none => if t.isDirectory names then t.follow (some names) rest else .error .notFound

/-- What a path reads as, seen from the root of the tree. -/
def read (t : FileTree) (p : Path) : Except FileError ByteArray :=
  if p.text.toList.contains '\x00' then .error .nulInName
  else if Files.pathLimit < p.text.utf8ByteSize then .error .nameTooLong
  else if p.text.isEmpty then .error .notFound
  else t.follow (if p.isAbsolute then none else some []) p.segments

/-- Puts a file into the tree, in the place of an older one at the same names. -/
def insert (t : FileTree) (names : List Name) (bytes : ByteArray) : FileTree :=
  (names, bytes) :: t

/-- The files of the tree. -/
def files (t : FileTree) : Files where
  read := t.read
  depth := Files.depthOf t.length

end FileTree

end RefRules
