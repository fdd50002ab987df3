import HostBoundary.Environment.Function

namespace HostBoundary

structure PropertyDefinition where
  name : String
  getter : Option NativeFunction := none
  setter : Option NativeFunction := none
  flags : Flags := 0
  deriving DecidableEq

structure MethodDefinition where
  name : String
  function : NativeFunction
  flags : Flags := 0
  deriving DecidableEq

-- A class to be. Without a name it is not registered; without a constructor it only
-- makes plain instances.
structure ClassDefinition where
  name : Option String := none
  constructor : Option (NativeFunction × Flags) := none
  finalizer : Option ReclaimHook := none
  properties : List PropertyDefinition := []
  methods : List MethodDefinition := []
  deriving DecidableEq

inductive ClassError where
  | emptyProperty (name : String)
  | parentWithoutConstructor (name : String)
  | parentNotConstructible (name : String)
  | templateCreation (name : String)
  | memberInstallation (className member : String)
  deriving DecidableEq

def ClassError.name : ClassError → String
  | .emptyProperty _ => "EmptyProperty"
  | .parentWithoutConstructor _ => "ParentWithoutConstructor"
  | .parentNotConstructible _ => "ParentNotConstructible"
  | .templateCreation _ => "TemplateCreation"
  | .memberInstallation _ _ => "MemberInstallation"

def ClassError.message : ClassError → String
  | .emptyProperty name => s!"property '{name}' has neither a getter nor a setter"
  | .parentWithoutConstructor name => s!"class '{name}' has a parent but no constructor"
  | .parentNotConstructible name => s!"parent class '{name}' is not constructible"
  | .templateCreation name => s!"engine refused to create template for '{name}'"
  | .memberInstallation className member =>
    s!"engine refused to install member '{member}' on '{className}'"

def shownName (name : Option String) : String := name.getD "<anonymous>"

namespace ClassDefinition

def fault? (d : ClassDefinition) (parent : Option CompiledClass) : Option ClassError :=
  let empty := d.properties.find? fun p => p.getter.isNone && p.setter.isNone
  match parent with
  | some p =>
    if d.constructor.isNone then some (.parentWithoutConstructor (shownName d.name))
    else if !p.constructible then some (.parentNotConstructible (shownName p.name))
    else empty.map (.emptyProperty ·.name)
  | none => empty.map (.emptyProperty ·.name)

end ClassDefinition

namespace Environment

variable {σ : Type}

def registerMember (n : EnvironmentId) (member : MemberEntry) : Act σ CallbackData :=
  modifyGet fun w =>
    let (data, tables) := (w.environment n).tables.registerMember member
    (data, w.modifyEnvironment n ({ · with tables }))

def installProperties (n : EnvironmentId) (template : TemplateRef) :
    List PropertyDefinition → Act σ (Option String)
  | [] => pure none
  | p :: rest => do
    let data ← registerMember n (.property p.name p.getter p.setter p.flags)
    if ← onHeap n (·.addAccessor template p.name (p.getter.map fun _ => data)
        (p.setter.map fun _ => data)) then
      installProperties n template rest
    else return some p.name

def installMethods (n : EnvironmentId) (template : TemplateRef) :
    List MethodDefinition → Act σ (Option String)
  | [] => pure none
  | m :: rest => do
    let data ← registerMember n (.method ⟨m.function, m.flags, none⟩)
    if ← onHeap n (·.addMethod template m.name data) then installMethods n template rest
    else return some m.name

-- Builds the whole class or nothing: if a member is refused the template is discarded.
def compile (n : EnvironmentId) (d : ClassDefinition) (parent : Option ClassId) :
    Act σ (Except ClassError ClassId) := do
  let w ← get
  let above := parent.bind w.class?
  if let some fault := d.fault? above then return .error fault
  let constructor ← match d.constructor with
    | some (function, flags) => some <$> registerMember n (.construct function flags d.finalizer)
    | none => pure none
  let some template ← onHeap n (·.newTemplate
      { className := d.name, constructor, parent := above.map (·.template), fieldCount := 2 })
    | return .error (.templateCreation (shownName d.name))
  let refused ← do
    match ← installProperties n template d.properties with
    | some name => pure (some name)
    | none => installMethods n template d.methods
  match refused with
  | some member =>
    onHeap n fun h => ((), h.discardTemplate template)
    return .error (.memberInstallation (shownName d.name) member)
  | none =>
    let compiled : CompiledClass :=
      { name := d.name, template, constructible := d.constructor.isSome,
        finalizer := d.finalizer, parent }
    return .ok (← modifyGet (·.addClass compiled))

def getClass (n : EnvironmentId) (name : String) : Act σ (Option ClassId) := do
  return (← Act.environment n).classes.lookup name

-- Compiles and registers a class. A name that is taken gives the class that has it.
def createClass (n : EnvironmentId) (d : ClassDefinition) (parent : Option ClassId) :
    Act σ (Except ClassError ClassId) := do
  let existing ← match d.name with
    | some name => getClass n name
    | none => pure none
  if let some existing := existing then return .ok existing
  match ← compile n d parent with
  | .error fault => return .error fault
  | .ok c =>
    Act.updateEnvironment n fun env =>
      match d.name with
      | some name => { env with classes := (name, c) :: env.classes }
      | none => { env with anonymous := env.anonymous ++ [c] }
    return .ok c

def newInstance (n : EnvironmentId) (c : ClassId) : Act σ (Option Handle) := do
  let some compiled := (← get).class? c | return none
  let some r ← onHeap n (·.newInstance compiled.template) | return none
  if let some finalizer := compiled.finalizer then
    onHeap n fun h => ((), attachFinalizer r finalizer h)
  return some (wrap r)

def classConstructor (n : EnvironmentId) (c : ClassId) : Act σ (Option Handle) := do
  let some compiled := (← get).class? c | return none
  allocated? n (·.templateFunction compiled.template)

def newInstanceWithConstructor (host : Host σ) (n : EnvironmentId) (c : ClassId)
    (args : List Tagged) : Act σ (Option Handle) := do
  let some compiled := (← get).class? c | return none
  let some function ← onHeap n (·.templateFunction compiled.template) | return none
  constructWith host n function args

end Environment

end HostBoundary
