namespace HostBoundary

inductive SystemError where
  | missing
  | notDirectory
  | directory
  | nameTooLong
  deriving DecidableEq

namespace SystemError

def text : SystemError → String
  | .missing => "No such file or directory"
  | .notDirectory => "Not a directory"
  | .directory => "Is a directory"
  | .nameTooLong => "File name too long"

def code : SystemError → Nat
  | .missing => 2
  | .notDirectory => 20
  | .directory => 21
  | .nameTooLong => 36

def ofCode? (code : Nat) : Option SystemError :=
  [missing, notDirectory, directory, nameTooLong].find? (·.code = code)

end SystemError

inductive ReadError where
  | system (e : SystemError)
  | notText
  | other (reason : String)
  deriving DecidableEq

def ReadError.message : ReadError → String
  | .system e => s!"{e.text} (os error {e.code})"
  | .notText => "stream did not contain valid UTF-8"
  | .other reason => reason

structure Place where
  rooted : Bool
  steps : List String
  deriving DecidableEq

def pathSteps (path : String) : List String :=
  (path.splitOn "/").filter fun step => !step.isEmpty && step != "."

def Place.ofPath (path : String) : Place := ⟨path.startsWith "/", pathSteps path⟩

def goesInto (path : String) : Bool := ["", "."].contains (((path.splitOn "/").getLast?).getD "")

def extension? (path : String) : Option String := do
  let name ← (pathSteps path).getLast?
  if name = ".." then none
  let backwards := name.toList.reverse
  let after := backwards.takeWhile (· ≠ '.')
  match backwards.dropWhile (· ≠ '.') with
  | _ :: _ :: _ => some (String.ofList after.reverse)
  | _ => none

def maxName : Nat := 255

def maxPath : Nat := 4096

abbrev Files := List (String × Except ReadError (List UInt8))

namespace Files

def at? (files : Files) (place : Place) : Option (Except ReadError (List UInt8)) :=
  (files.find? fun (name, _) => Place.ofPath name = place).map (·.2)

def isDirectory (files : Files) (place : Place) : Bool :=
  place.steps.all (· = "..") ||
    files.any fun (name, _) =>
      let other := Place.ofPath name
      other.rooted = place.rooted && place.steps.isPrefixOf other.steps && place ≠ other

def above (place : Place) : Place :=
  if place.rooted then { place with steps := place.steps.dropLast }
  else if place.steps.all (· = "..") then { place with steps := place.steps ++ [".."] }
  else { place with steps := place.steps.dropLast }

def walk (files : Files) : Place → List String → Except SystemError Place
  | place, [] => .ok place
  | place, step :: rest =>
    let next : Place := { place with steps := place.steps ++ [step] }
    if step = ".." then walk files (above place) rest
    else if maxName < step.utf8ByteSize then .error .nameTooLong
    else if files.isDirectory next then walk files next rest
    else if (files.at? next).isNone then .error .missing
    else if rest.isEmpty then .ok next
    else .error .notDirectory

def contents (files : Files) (path : String) : Except ReadError (List UInt8) := do
  let place := Place.ofPath path
  let found ← match files.at? place with
    | some contents => contents
    | none =>
      if maxPath ≤ path.utf8ByteSize then throw (.system .nameTooLong)
      let place ← (files.walk { place with steps := [] } place.steps).mapError .system
      match files.at? place with
      | some contents => contents
      | none => throw (.system .directory)
  if goesInto path then throw (.system .notDirectory)
  return found

def read (files : Files) (path : String) : Except ReadError String := do
  match String.fromUTF8? ⟨(← files.contents path).toArray⟩ with
  | some text => return text
  | none => throw .notText

end Files

end HostBoundary
