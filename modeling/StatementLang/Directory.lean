import StatementLang.Text.Newline
import StatementLang.Text.Quoted

/-!
Reading the text of a named file from a directory.

A name is a path: its parts are separated by slashes and walked from left to right. What lies
outside the directory is taken to be folders without entries, one in the other. A text file holds
UTF-8, and any of the usual line ends.
-/

namespace StatementLang

/-- Why the text of a file cannot be had. -/
inductive ReadFailure where
  | notFound (name : String)
  | isDirectory (name : String)
  | notDirectory (name : String)
  | nameTooLong (name : String)
  | nulInName
  /-- The bytes are not UTF-8. -/
  | notText
  /-- Whatever else the system reports. -/
  | system (message : String)
  deriving DecidableEq

namespace ReadFailure

/-- The number and the wording that the system has for a failure, and the name that it is about. -/
def report (errno : Nat) (wording name : String) : String :=
  s!"[Errno {errno}] {wording}: {Text.quoted name}"

/-- The message for a failure, unless it depends on the bytes of the file. -/
def message? : ReadFailure → Option String
  | notFound name => some (report 2 "No such file or directory" name)
  | isDirectory name => some (report 21 "Is a directory" name)
  | notDirectory name => some (report 20 "Not a directory" name)
  | nameTooLong name => some (report 36 "File name too long" name)
  | nulInName => some "embedded null byte"
  | notText => none
  | system message => some message

end ReadFailure

/-- The text in the bytes of a text file. -/
def decodeText (bytes : ByteArray) : Except ReadFailure String :=
  match String.fromUTF8? bytes with
  | some text => .ok (String.ofList (Text.unifyNewlines text.toList))
  | none => .error .notText

inductive Directory.Entry where
  | file (bytes : ByteArray)
  | folder

/-- Entries by the path that leads to them. A file may lie in folders that have no entry. -/
abbrev Directory := List (String × Directory.Entry)

namespace Directory

/-- Where a walk along a path has come to. -/
inductive Spot where
  | inside (folder : List String)
  | outside
  | file (bytes : ByteArray)

/-- The path of the entry with the given parts. -/
def join (parts : List String) : String := "/".intercalate parts

/-- What lies at a path, given by its parts. -/
def spotAt? (d : Directory) (parts : List String) : Option Spot :=
  match d.lookup (join parts) with
  | some (.file bytes) => some (.file bytes)
  | some .folder => some (.inside parts)
  | none =>
    if d.any fun entry => (join parts ++ "/").toList.isPrefixOf entry.1.toList
    then some (.inside parts)
    else none

def longestPart : Nat := 255
def longestName : Nat := 4095

/-- Follows one part of the path `name`. -/
def step (d : Directory) (name : String) (spot : Spot) (part : String) :
    Except ReadFailure Spot :=
  match spot with
  | .file _ => .error (.notDirectory name)
  | .outside =>
    if part = "" ∨ part = "." ∨ part = ".." then .ok .outside
    else if part.utf8ByteSize > longestPart then .error (.nameTooLong name)
    else .error (.notFound name)
  | .inside folder =>
    if part = "" ∨ part = "." then .ok (.inside folder)
    else if part = ".." then .ok (if folder.isEmpty then .outside else .inside folder.dropLast)
    else if part.utf8ByteSize > longestPart then .error (.nameTooLong name)
    else
      match d.spotAt? (folder ++ [part]) with
      | some spot => .ok spot
      | none => .error (.notFound name)

/-- The bytes of the file with the given name. -/
def read (d : Directory) (name : String) : Except ReadFailure ByteArray :=
  if '\x00' ∈ name.toList then .error .nulInName
  else if name = "" then .error (.notFound name)
  else if name.utf8ByteSize > longestName then .error (.nameTooLong name)
  else do
    let first := if name.startsWith "/" then Spot.outside else .inside []
    match ← (name.splitOn "/").foldlM (d.step name) first with
    | .file bytes => .ok bytes
    | _ => .error (.isDirectory name)

end Directory

end StatementLang
