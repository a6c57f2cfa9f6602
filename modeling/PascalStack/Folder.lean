import PascalStack.Text.Decoding

/-!
# The working folder

A folder that holds at most one file, with the folders on the way to it. Paths are followed part
by part, and whatever stops the way is the fault.
-/

namespace PascalStack

/-- A folder with at most one file, given by the parts of its path. -/
structure Folder where
  file? : Option (List String × List UInt8) := none

namespace Folder

/-- The parts of a path that lead somewhere. -/
def pathParts (path : String) : List String :=
  (path.splitOn "/").filter fun part => part != "" && part != "."

/-- The folder that holds one file. -/
def withFile (path : String) (bytes : List UInt8) : Folder := ⟨some (pathParts path, bytes)⟩

def partLimit : Nat := 255

def pathLimit : Nat := 4095

/-- What stands at a place inside the folder. -/
inductive Entry where
  | file (bytes : List UInt8)
  | folder
  | missing

/-- What is at a place. -/
def entry (folder : Folder) (place : List String) : Entry :=
  match folder.file? with
  | none => if place.isEmpty then .folder else .missing
  | some (file, bytes) =>
    if place == file then .file bytes
    else if place.isPrefixOf file then .folder
    else .missing

/-- Follows the parts of a path from a place inside the folder. The folder above holds the
folder of code files. -/
def follow (folder : Folder) (path : String) (above : Nat) (place : List String) :
    List String → Except Fault (List UInt8)
  | [] => .error (.isADirectory path)
  | part :: rest =>
    if part == "" || part == "." then folder.follow path above place rest
    else if part == ".." then
      if place.isEmpty then folder.follow path (above + 1) [] rest
      else folder.follow path above place.dropLast rest
    else if part.utf8ByteSize > partLimit then .error (.nameTooLong path)
    else if above > 0 then
      if above == 1 && place.isEmpty && part == "vm" then folder.follow path above [part] rest
      else .error (.noSuchFile path)
    else
      match folder.entry (place ++ [part]) with
      | .folder => folder.follow path above (place ++ [part]) rest
      | .missing => .error (.noSuchFile path)
      | .file bytes => if rest.isEmpty then .ok bytes else .error (.notADirectory path)

/-- The bytes of the file at a path. -/
def bytesAt (folder : Folder) (path : String) : Except Fault (List UInt8) :=
  if path.toList.contains (Char.ofNat 0) then .error .nullInName
  else if path.isEmpty then .error (.noSuchFile path)
  else if path.utf8ByteSize > pathLimit then .error (.nameTooLong path)
  else if path.startsWith "/" then
    if (pathParts path).isEmpty then .error (.isADirectory path) else .error (.noSuchFile path)
  else folder.follow path 0 [] (path.splitOn "/")

/-- The text of the file at a path. -/
def read (folder : Folder) (path : String) : Except Fault String := do
  Text.ofBytes (← folder.bytesAt path)

end Folder

end PascalStack
