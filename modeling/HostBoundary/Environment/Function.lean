import HostBoundary.Environment.Property

namespace HostBoundary.Environment

variable {σ : Type}

-- Runs a script given as either form of text. What goes wrong in it lands in the
-- exception slot with its place.
def executeScript (n : EnvironmentId) (code : Tagged) (file : Option String) (startLine : Int)
    (flags : Flags) : Act σ (Option Tagged) := do
  let source := match code with
    | .utf8 text => some (Units.ofString text)
    | .utf16 units => some units
    | _ => none
  let some source := source | return none
  deliver n flags (← onHeap n (·.execute source (file.getD "") startLine))

-- The segments of a domain such as `a.b.c`, none of them empty.
def segments? (domain : String) : Option (List String) :=
  let segments := domain.splitOn "."
  if segments.any (·.isEmpty) then none else some segments

def descend (host : Host σ) (n : EnvironmentId) (target : ObjectRef) :
    List String → Act σ (Option ObjectRef)
  | [] => pure (some target)
  | segment :: rest => do
    let e ← engineOf n
    match ← Engine.getProperty host e target (.text segment) with
    | .error thrown =>
      recordThrow n thrown
      return none
    | .ok value =>
      match value.object? with
      | some inner => descend host n inner rest
      | none =>
        let inner ← onHeap n (·.newObject)
        if ← succeeded n (← Engine.setProperty host e target (.text segment) (.object inner)) then
          descend host n inner rest
        else return none

def ownerHandle (h : Heap) : Handle → Option Handle × Heap
  | .persistent slot => (some (.persistent slot), h)
  | .transient target =>
    match h.persist target with
    | (none, h) => (none, h)
    | (some slot, h) =>
      let (weak, h) := h.weaken slot none
      (if weak then some (.persistent slot) else none, h)

def registerCallback (host : Host σ) (n : EnvironmentId) (owner : Option Handle)
    (domain : String) (flags : Flags) (f : NativeFunction) : Act σ Bool := do
  let some segments := segments? domain | return false
  let root ← match owner with
    | some handle => resolve n handle
    | none => some <$> globalOf n
  let some root := root | return false
  let owner ← match owner with
    | some handle => onHeap n (ownerHandle · handle)
    | none => pure none
  let some target ← descend host n root segments.dropLast | return false
  let name := segments.getLast?.getD ""
  let data ← modifyGet fun w =>
    let (data, tables) := (w.environment n).tables.registerDomain ⟨f, flags, owner⟩
    (data, w.modifyEnvironment n ({ · with tables }))
  let function ← onHeap n (·.newFunction data (some name))
  succeeded n
    (← Engine.setProperty host (← engineOf n) target (.text name) (.object function))

def newFunction (n : EnvironmentId) (flags : Flags) (f : NativeFunction) : Act σ Handle := do
  let data ← modifyGet fun w =>
    let (data, tables) := (w.environment n).tables.registerFunction ⟨f, flags, none⟩
    (data, w.modifyEnvironment n ({ · with tables }))
  allocated n (·.newFunction data none)

def callFunction (host : Host σ) (n : EnvironmentId) (function : Handle) (this : Option Handle)
    (args : List Tagged) (flags : Flags) : Act σ (Option Tagged) := do
  let some f ← resolve n function | return none
  let receiver ← match this with
    | some handle => resolve n handle
    | none => some <$> globalOf n
  let some receiver := receiver | return none
  let some args ← toValues n args | return none
  deliver n flags (← Engine.call host (← engineOf n) f (.object receiver) args)

def constructWith (host : Host σ) (n : EnvironmentId) (f : ObjectRef) (args : List Tagged) :
    Act σ (Option Handle) := do
  let some args ← toValues n args | return none
  match ← Engine.construct host (← engineOf n) f args with
  | .ok r => return some (wrap r)
  | .error thrown =>
    recordThrow n thrown
    return none

def callAsConstructor (host : Host σ) (n : EnvironmentId) (function : Handle)
    (args : List Tagged) : Act σ (Option Handle) := do
  let some f ← resolve n function | return none
  constructWith host n f args

end HostBoundary.Environment
