/-!
# ReaderGen.FileTree -- files below a working directory

A path is followed one component at a time from the working directory. An empty
component and `.` stay, `..` goes up, a name goes down; **only a directory can be gone
on from, so a file with a slash behind it is not found as a file.** A tree knows the
files below the working directory and the directories on the way to them. Of what lies
outside, it knows that the directories upwards exist, the usual directories of the root
and the null device, which is an empty file, and nothing else.

Reading gives text. Bytes that are not UTF-8 are a failure of the reading.
-/

namespace ReaderGen

/-- Why a file cannot be read as text. A tree gives the first six reasons; a file
system may have others. -/
inductive ReadError where
  | notFound
  | notDirectory
  | isDirectory
  | nameTooLong
  | zeroInPath
  | notUtf8
  | system (description : String) (code : UInt32)
  deriving DecidableEq, Repr

/-- A failure that the operating system describes and numbers. -/
def systemText (description : String) (code : UInt32) : String :=
  description ++ " (os error " ++ toString code.toNat ++ ")"

/-- How the failure is reported. -/
def ReadError.message : ReadError → String
  | notFound => systemText "No such file or directory" 2
  | notDirectory => systemText "Not a directory" 20
  | isDirectory => systemText "Is a directory" 21
  | nameTooLong => systemText "File name too long" 36
  | zeroInPath => "file name contained an unexpected NUL byte"
  | notUtf8 => "stream did not contain valid UTF-8"
  | system description code => systemText description code

/-- The text that bytes are, if they are UTF-8. -/
def textOfBytes (bytes : ByteArray) : Except ReadError String :=
  match String.fromUTF8? bytes with
  | some text => .ok text
  | none => .error .notUtf8

/-- The components of a path, empty ones included. -/
def pathComponents (path : String) : List String := path.splitOn "/"

/-- The bytes of files, each under the components of its path. -/
structure FileTree where
  files : List (List String × ByteArray)

namespace FileTree

/-- A tree of files with paths relative to the working directory. -/
def ofFiles (files : List (String × ByteArray)) : FileTree :=
  ⟨files.map fun (path, bytes) =>
    ((pathComponents path).filter fun name => name ≠ "" && name ≠ ".", bytes)⟩

/-- Where a path has led to. Of a directory outside the tree, the components from the
root are known only if the path began there. -/
inductive Location where
  | file (bytes : ByteArray)
  | directory (components : List String)
  | outside (fromRoot : Option (List String))

/-- The longest name of a file, in bytes. -/
def maxNameLength : Nat := 255

/-- The longest path, in bytes. -/
def maxPathLength : Nat := 4095

/-- What a name in a directory of the tree leads to. -/
def enter (tree : FileTree) (components : List String) : Except ReadError Location :=
  match tree.files.lookup components with
  | some bytes => .ok (.file bytes)
  | none =>
    if tree.files.any fun entry => components.isPrefixOf entry.1
    then .ok (.directory components) else .error .notFound

/-- The usual directories of the root. -/
def rootDirectories : List String :=
  ["bin", "dev", "etc", "home", "lib", "proc", "root", "sbin", "tmp", "usr", "var"]

/-- What a name in a directory outside the tree leads to. -/
def enterOutside (fromRoot : Option (List String)) (name : String) : Except ReadError Location :=
  match fromRoot with
  | some [] =>
    if rootDirectories.contains name then .ok (.outside (some [name])) else .error .notFound
  | some ["dev"] => if name = "null" then .ok (.file ByteArray.empty) else .error .notFound
  | _ => .error .notFound

/-- One step along a path. -/
def step (tree : FileTree) (location : Location) (name : String) : Except ReadError Location :=
  match location with
  | .file _ => .error .notDirectory
  | .directory components =>
    if name = "" || name = "." then .ok location
    else if name = ".." then
      if components.isEmpty then .ok (.outside none) else .ok (.directory components.dropLast)
    else if maxNameLength < name.utf8ByteSize then .error .nameTooLong
    else tree.enter (components ++ [name])
  | .outside fromRoot =>
    if name = "" || name = "." then .ok location
    else if name = ".." then .ok (.outside (fromRoot.map List.dropLast))
    else if maxNameLength < name.utf8ByteSize then .error .nameTooLong
    else enterOutside fromRoot name

/-- The text of the file that a path leads to. -/
def read (tree : FileTree) (path : String) : Except ReadError String := do
  if path.isEmpty then throw .notFound
  if path.contains '\x00' then throw .zeroInPath
  if maxPathLength < path.utf8ByteSize then throw .nameTooLong
  let start := if path.startsWith "/" then Location.outside (some []) else .directory []
  match ← (pathComponents path).foldlM tree.step start with
  | .file bytes => textOfBytes bytes
  | .directory _ | .outside _ => .error .isDirectory

end FileTree

end ReaderGen
