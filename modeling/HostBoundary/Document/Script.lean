import HostBoundary.Document.Reader
import HostBoundary.Exception

namespace HostBoundary

structure SyntaxError where
  description : String
  location : Location
  deriving DecidableEq

namespace SyntaxError

def text (e : SyntaxError) : String := "SyntaxError: " ++ e.description

def stack (e : SyntaxError) : String :=
  s!"{e.text}\n    at {e.location.resource}:{e.location.line}:{e.location.start}"

end SyntaxError

namespace Script

-- Cuts at line feeds. A carriage return in front of one belongs to it, and a line feed
-- at the end starts no further line.
def linesFrom (current : List Char) : List Char → List String
  | [] => if current.isEmpty then [] else [String.ofList current.reverse]
  | '\n' :: rest =>
    let line := match current with
      | '\r' :: before => before
      | line => line
    String.ofList line.reverse :: linesFrom [] rest
  | c :: rest => linesFrom (c :: current) rest

def lines (source : String) : List String := linesFrom [] source.toList

def lineAndColumn (bytes : List UInt8) : Nat × Nat :=
  (bytes.count 0x0A, (bytes.reverse.takeWhile (· ≠ 0x0A)).length)

def parse (source resource : String) (startLine : Int) : Except SyntaxError Document :=
  match Document.parse source with
  | .ok document => .ok document
  | .error fault =>
    let (line, column) := lineAndColumn (source.toUTF8.toList.take fault.offset)
    let start : Int := ((column - 1 : Nat) : Int)
    .error
      { description := fault.cause.message
        location :=
          { resource, line := startLine + line, start, stop := start + 1,
            source := (lines source)[line]? } }

end Script

end HostBoundary
