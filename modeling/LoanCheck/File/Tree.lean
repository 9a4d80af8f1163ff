import LoanCheck.File.Path
import LoanCheck.Text.Utf8

/-!
Files and directories below a current directory, held as data.  Nothing outside it
can be read.  Names and paths have a greatest length, in bytes.
-/

namespace LoanCheck

/-- Why a file could not be read. -/
inductive FileError where
  | missing
  | isDirectory
  | notDirectory
  | nameTooLong
deriving DecidableEq, Repr

namespace FileError

/-- The number of the system's error. -/
def number : FileError → Nat
  | .missing => 2
  | .isDirectory => 21
  | .notDirectory => 20
  | .nameTooLong => 36

def message : FileError → String
  | .missing => "No such file or directory"
  | .isDirectory => "Is a directory"
  | .notDirectory => "Not a directory"
  | .nameTooLong => "File name too long"

/-- The message with the path it is about. -/
def about (error : FileError) (path : Path) : String :=
  let number := error.number
  let what := error.message
  let shown := Text.quoted path.text
  s!"[Errno {number}] {what}: {shown}"

end FileError

/-- How files are read: by path, to their bytes. -/
abbrev Disk := Path → Except FileError (List UInt8)

/-- The text of a file could not be had. -/
inductive TextFileError where
  | file (error : FileError)
  | decode (error : Text.DecodeError)
  /-- The path holds a null character, so no system can be asked for it. -/
  | nullInPath

/-- Read a file as text, with one newline for each line end. -/
def Disk.readText (disk : Disk) (path : Path) : Except TextFileError (List Char) :=
  if path.chars.contains (Char.ofNat 0) then .error .nullInPath
  else
    match disk path with
    | .error error => .error (.file error)
    | .ok bytes =>
        match Text.decode bytes with
        | .error error => .error (.decode error)
        | .ok text => .ok (Text.unifyNewlines text)

/-- A file with its bytes, or a directory. -/
inductive FileEntry where
  | file (bytes : List UInt8)
  | directory

/-- Entries by the parts of their paths; the directories above them exist too. -/
structure FileTree where
  entries : List (List (List Char) × FileEntry)

namespace FileTree

/-- Where a walk through directories has come to. -/
inductive Location where
  | inside (parts : List (List Char))
  | outside

/-- What is found at the parts of a path. -/
def entry? (tree : FileTree) (parts : List (List Char)) : Option FileEntry :=
  match tree.entries.lookup parts with
  | some entry => some entry
  | none =>
      if parts.isEmpty || tree.entries.any fun (path, _) => parts.isPrefixOf path then
        some .directory
      else none

/-- The most bytes that a name may have. -/
def maxNameBytes : Nat := 255

/-- The most bytes that a path may have. -/
def maxPathBytes : Nat := 4095

def byteCount (text : List Char) : Nat := (String.ofList text).utf8ByteSize

/-- Take one part of a path. -/
def enter (tree : FileTree) (location : Location) (part : List Char) :
    Except FileError Location :=
  match location with
  | .outside =>
      if part = ['.', '.'] then .ok .outside
      else if maxNameBytes < byteCount part then .error .nameTooLong
      else .error .missing
  | .inside parts =>
      match tree.entry? parts with
      | none => .error .missing
      | some (.file _) => .error .notDirectory
      | some .directory =>
          if part = ['.', '.'] then
            .ok (if parts.isEmpty then .outside else .inside parts.dropLast)
          else if maxNameBytes < byteCount part then .error .nameTooLong
          else .ok (.inside (parts ++ [part]))

/-- Read a file of the tree. -/
def read (tree : FileTree) : Disk := fun path => do
  if maxPathBytes < byteCount path.chars then .error .nameTooLong
  let start := if path.root.isEmpty then Location.inside [] else .outside
  match ← path.parts.foldlM tree.enter start with
  | .outside => .error .isDirectory
  | .inside parts =>
      match tree.entry? parts with
      | none => .error .missing
      | some .directory => .error .isDirectory
      | some (.file bytes) => .ok bytes

end FileTree

end LoanCheck
