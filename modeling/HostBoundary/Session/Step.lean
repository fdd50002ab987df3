import HostBoundary.Engine.Request
import HostBoundary.Foreign.Entry

namespace HostBoundary.Session

-- Names stand for what earlier steps were bound to. An object is given by a name or
-- outright.
inductive HandleTerm where
  | variable (name : String)
  | literal (handle : Handle)
  deriving DecidableEq

inductive ValueTerm where
  | variable (name : String) (retyped : Option Int32)
  | literal (value : Tagged)
  deriving DecidableEq

inductive EngineTerm where
  | variable (name : String)
  | handle (h : Handle)
  | literal (value : Value)
  deriving DecidableEq

inductive WordTerm where
  | zero
  | word (w : UInt64)
  | object (term : HandleTerm)
  deriving DecidableEq

inductive WireTerm where
  | nullAddress
  | wire (value : WireValue)
  | value (term : ValueTerm)
  deriving DecidableEq

abbrev EnvironmentStep := Environment.Operation HandleTerm ValueTerm String Int32 Int32

abbrev EngineStep := Engine.Request HandleTerm HandleTerm EngineTerm String Int32

abbrev ForeignStep := Foreign.Call WordTerm WireTerm (Option String)

inductive Through where
  | atHand
  | null
  | named (name : String)
  deriving DecidableEq

inductive Action where
  | operation (environment : Option String) (op : EnvironmentStep)
  | narrowed (environment : Option String) (op : EnvironmentStep)
  | narrowedVersion (environment : Option String)
  | attach (target : String)
  | negotiate (target : String) (version : Int32)
  | acquire (environment : Option String) (target : String)
  | dropEnvironment (environment : String)
  | cloneEnvironment (environment target : String)
  | sameEnvironment (a b : String)
  | teardown
  | sameClass (a b : String)
  | request (r : EngineStep)
  | display (value : ValueTerm)
  | releaseHandle (object : HandleTerm)
  | decodeHandle (object : HandleTerm)
  | rawHandle (object : HandleTerm)
  | foreign (through : Through) (call : ForeignStep)
  | foreignSameClass (a b : Option String)
  | registerContext
  | newContext
  | endContext (context : UInt64)
  | getEnvironment (context : UInt64) (version : Int32) (target : String)
  | releaseForeign (name : String)
  | weakInfoOfNull (data : Pointer) (fields : Fields)
  | unknown (name : String)

structure Step where
  action : Action
  target : Option String := none

structure Program where
  id : String
  body : List Step := []
  result : Option WireTerm := none
  ok : Bool := true

inductive Routine where
  | program (p : Program)
  | finalizer (id : String)
  | weak (id : String) (body : List Step)
  | foreignWeak (id : String)
  | reclaim (id : String)
  | release (id : String)
  | foreignRelease (id : String)

end HostBoundary.Session

namespace HostBoundary

structure Session where
  limits : HeapLimits := {}
  attach : Bool := true
  routines : Array Session.Routine := #[]
  steps : List Session.Step := []

end HostBoundary
