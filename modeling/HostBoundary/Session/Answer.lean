import HostBoundary.Session.Step

namespace HostBoundary.Session

inductive StepError where
  | unbound (name : String)
  | notHandle
  | notValue
  | notClass
  | notTemplate
  | noEnvironment
  | firstSurface
  | noForeignEnvironment
  | badExceptionKind
  | badElementKind
  | notPersistent
  | deadPersistent
  | unknownStep (name : String)
  deriving DecidableEq

def StepError.message : StepError → String
  | .unbound name => s!"unbound {name}"
  | .notHandle => "not a handle"
  | .notValue => "not a value"
  | .notClass => "not a class"
  | .notTemplate => "not a template"
  | .noEnvironment => "no environment"
  | .firstSurface => "version 1000 handle"
  | .noForeignEnvironment => "no C environment"
  | .badExceptionKind => "bad exception kind"
  | .badElementKind => "bad typed array kind"
  | .notPersistent => "not a persistent handle"
  | .deadPersistent => "dead persistent"
  | .unknownStep name => s!"unknown step {name}"

structure ClassView where
  name : Option String
  template : TemplateRef
  constructible : Bool
  parent : Option String
  deriving DecidableEq

inductive Result where
  | done
  | boolean (b : Bool)
  | word (w : UInt64)
  | text (s : String)
  | conversionError (e : ConversionError)
  | decoded (target : Option ObjectRef) (persistent : Bool)
  | environment (a : Environment.Answer)
  | engine (r : Engine.Reply)
  | foreign (a : Foreign.Answer)
  | klass (view : Option ClassView)
  | foreignClass (view : Option ClassView)
  | surface (s : Option Surface)
  | version (v : Option Int32)
  | context (id : UInt64)
  | weakInfo (data : Pointer) (fields : Fields)
  deriving DecidableEq

mutual

inductive Event where
  | callback (id : String) (this : Option Handle) (args : List (Except ConversionError Tagged))
      (steps : List StepAnswer) (version : Option Int32)
  | finalize (id : String) (fields : Fields)
  | weak (id : String) (data : Pointer) (fields : Fields) (steps : List StepAnswer)
  | foreignWeak (id : String) (data : Pointer) (fields : Fields)
  | reclaim (id : String) (fields : Fields)
  | release (id : String) (bytes : Array UInt8) (data : Option Pointer)

inductive StepAnswer where
  | mk (result : Except StepError Result) (events : List Event) (exception : Option Exception)

end

end HostBoundary.Session
