/-
  LambdaSyntax.Files — the files that a path can name, and what reading one gives.

  Paths start at a working directory that holds files and directories; nothing is known of
  the world outside it but that it consists of directories. A path is followed name by name
  and each name but the last has to lead to a directory; `.` and the empty name stay where
  they are and `..` goes up. A name takes at most 255 bytes and a path fewer than 4096; too
  long a name is noticed when it is looked up, too long a path at once.

  A text file is UTF-8, and its line ends are read as line feeds.
-/

import LambdaSyntax.Text.Lines
import LambdaSyntax.Text.Utf8

namespace LambdaSyntax

inductive Entry where
  | file (bytes : List UInt8)
  | directory
  deriving DecidableEq, Repr

/-- Why a file cannot be read as text. -/
inductive FileFault where
  | missing
  | isDirectory
  | notDirectory
  | nameTooLong
  /-- The path holds the character U+0000. -/
  | nulInPath
  | undecodable (bad : Text.Utf8.BadBytes)
  deriving DecidableEq, Repr

namespace FileFault

/-- The number and the words that the system has for a fault of its own. -/
def system? : FileFault → Option (Nat × String)
  | missing => some (2, "No such file or directory")
  | isDirectory => some (21, "Is a directory")
  | notDirectory => some (20, "Not a directory")
  | nameTooLong => some (36, "File name too long")
  | nulInPath | undecodable _ => none

def message (path : String) (f : FileFault) : String :=
  match f.system?, f with
  | some (number, words), _ =>
    "[Errno " ++ toString number ++ "] " ++ words ++ ": " ++ Text.quoted path
  | none, undecodable bad => bad.message
  | none, _ => "embedded null byte"

end FileFault

/-- Bytes read as text. -/
def decodeText (bytes : List UInt8) : Except FileFault String :=
  match Text.Utf8.decode bytes with
  | .ok cs => .ok (String.ofList (Text.lineFeeds cs))
  | .error bad => .error (.undecodable bad)

/-- The names of a path, split at each slash. -/
def pathNames : List Char → List (List Char)
  | [] => [[]]
  | c :: cs =>
    if c = '/' then [] :: pathNames cs
    else match pathNames cs with
      | [] => [[c]]
      | name :: names => (c :: name) :: names

/-- The entries of a working directory by the names that lead to them. -/
structure Files where
  entries : List (List (List Char) × Entry)
  deriving DecidableEq, Repr

namespace Files

def ofList (entries : List (String × Entry)) : Files :=
  ⟨entries.map fun e => (pathNames e.1.toList, e.2)⟩

/-- What stands at a place; a place on the way to an entry is a directory. -/
def entryAt (fs : Files) (place : List (List Char)) : Option Entry :=
  match fs.entries.lookup place with
  | some e => some e
  | none =>
    if place.isEmpty || fs.entries.any (fun e => place.isPrefixOf e.1) then some .directory else none

def byteCount (cs : List Char) : Nat := (String.ofList cs).utf8ByteSize

def longestName : Nat := 255

/-- The path and one byte that closes it take at most this many. -/
def longestPath : Nat := 4096

def staying : List (List Char) := [[], ['.']]

def upward : List Char := ['.', '.']

/-- Follows names from a place outside the working directory. -/
def outside : List (List Char) → Except FileFault Entry
  | [] => .ok .directory
  | name :: names =>
    if name ∈ staying ∨ name = upward then outside names
    else if longestName < byteCount name then .error .nameTooLong
    else .error .missing

def follow (fs : Files) (place : List (List Char)) : List (List Char) → Except FileFault Entry
  | [] => match fs.entryAt place with
    | some e => .ok e
    | none => .error .missing
  | name :: names =>
    match fs.entryAt place with
    | none => .error .missing
    | some (.file _) => .error .notDirectory
    | some .directory =>
      if name ∈ staying then fs.follow place names
      else if name = upward then
        if place.isEmpty then outside names else fs.follow place.dropLast names
      else if longestName < byteCount name then .error .nameTooLong
      else fs.follow (place ++ [name]) names

def locate (fs : Files) (path : String) : Except FileFault Entry :=
  match path.toList with
  | [] => .error .missing
  | c :: cs =>
    if longestPath ≤ byteCount (c :: cs) then .error .nameTooLong
    else if c = '/' then outside (pathNames cs)
    else fs.follow [] (pathNames (c :: cs))

def bytesAt (fs : Files) (path : String) : Except FileFault (List UInt8) :=
  if '\x00' ∈ path.toList then .error .nulInPath
  else match fs.locate path with
    | .ok (.file bytes) => .ok bytes
    | .ok .directory => .error .isDirectory
    | .error f => .error f

def textAt (fs : Files) (path : String) : Except FileFault String :=
  (fs.bytesAt path).bind decodeText

end Files

end LambdaSyntax
