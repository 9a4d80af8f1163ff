import LoanCheck.Config
import LoanCheck.File.Tree
import LoanCheck.Program.Data
import LoanCheck.Program.Text

/-!
Reading programs from files: data if the name ends in `.json`, and text otherwise.
The unit without a header is named after the file.
-/

namespace LoanCheck

/-- Why a file holds no program. -/
inductive SourceError where
  | file (error : FileError)
  | decode (error : Text.DecodeError)
  | nullInPath
  | data (error : DataError)
  | text (file : String) (error : SourceText.ReadError)

/-- Whether a file holds data. -/
def Path.isData (path : Path) : Bool := path.suffix == ".json"

/-- Read the text of a program file. -/
def Program.ofFileText (path : Path) (text : List Char) : Except SourceError Program :=
  if path.isData then
    match Program.readData text with
    | .ok program => .ok program
    | .error error => .error (.data error)
  else
    match Program.readText (some path.text) path.stem text with
    | .ok program => .ok program
    | .error error => .error (.text path.text error)

/-- Read a program file. -/
def Program.load (disk : Disk) (path : Path) : Except SourceError Program :=
  match disk.readText path with
  | .error (.file error) => .error (.file error)
  | .error (.decode error) => .error (.decode error)
  | .error .nullInPath => .error .nullInPath
  | .ok text => Program.ofFileText path text

/-- Errors that are no fault of a program or a configuration.  Nothing handles them. -/
inductive Escape where
  | name (error : NameError)
  | decode (error : Text.DecodeError)
  | limit (limit : Json.Limit)
  | nullInPath
  /-- A configuration file was asked for without a path. -/
  | noConfigPath

def Escape.message : Escape → String
  | .name error => error.message
  | .decode error => error.message
  | .limit passed => passed.message
  | .nullInPath => "embedded null byte"
  | .noConfigPath => "'list' object has no attribute 'read_text'"

/-- Read a configuration file. -/
def Config.load (disk : Disk) (path : Path) : Except Escape (Except ConfigError Config) :=
  match disk.readText path with
  | .error (.file error) => .ok (.error (.unreadable path.text error.message))
  | .error (.decode error) => .error (.decode error)
  | .error .nullInPath => .error .nullInPath
  | .ok text => .ok (Config.ofText path.text text)

end LoanCheck
