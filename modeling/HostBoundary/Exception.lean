import HostBoundary.Value

namespace HostBoundary

structure Location where
  resource : String
  line : Int
  start : Int
  stop : Int
  source : Option String
  deriving DecidableEq

structure Throw where
  value : Value
  text : String
  location : Option Location := none
  stack : Option String := none
  deriving DecidableEq

-- With a location: the source line, the place, and the stack if there is one.
-- Without: the text of the thrown value.
def Throw.report (t : Throw) : String :=
  match t.location with
  | none => t.text
  | some at_ =>
    at_.source.getD "No source line" ++ "\n" ++
      s!"@{at_.resource}:{at_.line}(from {at_.start} to {at_.stop} )\n" ++ t.stack.getD ""

inductive ExceptionKind where
  | none
  | engine
  | nativeRuntime
  deriving DecidableEq, Inhabited

namespace ExceptionKind

def code : ExceptionKind → Int32
  | .none => 0
  | .engine => 1
  | .nativeRuntime => 2

def ofCode? (code : Int32) : Option ExceptionKind :=
  [.none, .engine, .nativeRuntime].find? (·.code = code)

def name : ExceptionKind → String
  | .none => "None"
  | .engine => "Engine"
  | .nativeRuntime => "NativeRuntime"

end ExceptionKind

structure Exception where
  kind : ExceptionKind := .none
  message : String := ""
  deriving DecidableEq, Inhabited

namespace Exception

def isSet (e : Exception) : Bool := e.kind != .none

def engine (message : String) : Exception := ⟨.engine, message⟩

def native (message : String) : Exception := ⟨.nativeRuntime, message⟩

end Exception

end HostBoundary
