import HostBoundary.Heap.Basic

namespace HostBoundary.Heap

def newTemplate (h : Heap) (template : Template) : Option TemplateRef × Heap :=
  match template.parent with
  | some parent =>
    if (h.template? parent).isSome then
      let (r, h) := h.addTemplate template
      (some r, h)
    else (none, h)
  | none =>
    let (r, h) := h.addTemplate template
    (some r, h)

def acceptsMember (h : Heap) (r : TemplateRef) (name : String) : Bool :=
  match h.template? r with
  | some template => template.function.isNone && !name.isEmpty
  | none => false

def addAccessor (h : Heap) (r : TemplateRef) (name : String)
    (getter setter : Option CallbackData) : Bool × Heap :=
  if h.acceptsMember r name then
    (true, h.modifyTemplate r fun t => { t with accessors := t.accessors ++ [(name, getter, setter)] })
  else (false, h)

def addMethod (h : Heap) (r : TemplateRef) (name : String) (data : CallbackData) : Bool × Heap :=
  if h.acceptsMember r name then
    (true, h.modifyTemplate r fun t => { t with methods := t.methods ++ [(name, data)] })
  else (false, h)

def constructor? (h : Heap) (r : TemplateRef) : Option CallbackData :=
  (h.template? r).bind (·.constructor)

def functionObject (body : FunctionBody) (name : String) : HeapObject :=
  (HeapObject.ofBody (.function body)).defineHidden "name" (.text name)

def newFunction (h : Heap) (data : CallbackData) (name : Option String) : ObjectRef × Heap :=
  h.allocate (functionObject (.native data) (name.getD ""))

-- A function for each method, put on the prototype; a later one replaces an earlier one
-- of the same name.
def installMethods (h : Heap) (prototype : HeapObject) :
    List (String × CallbackData) → HeapObject × Heap
  | [] => (prototype, h)
  | (name, data) :: rest =>
    let (method, h) := h.allocate (functionObject (.native data) name)
    installMethods h (prototype.define (.ofName name) (.object method) false) rest

def build (h : Heap) (r : TemplateRef) (template : Template) (parent : Option ObjectRef) :
    (ObjectRef × ObjectRef) × Heap :=
  let bare : HeapObject :=
    { body := .plain
      prototype := parent
      properties := template.accessors.map fun (name, getter, setter) =>
        ⟨.ofName name, .accessor getter setter, false⟩ }
  let (object, h) := h.installMethods bare template.methods
  let (prototype, h) := h.allocate object
  let (function, h) := h.allocate
    ((functionObject (.template r) (template.className.getD "")).defineHidden "prototype"
      (.object prototype))
  let h := h.modifyObject prototype (·.defineHidden "constructor" (.object function))
  ((function, prototype),
    h.modifyTemplate r ({ · with function := some function, prototype := some prototype }))

-- Function and prototype of a template, built on first use after those of its
-- ancestors. A parent is older than its children, so the chain is no longer than the
-- number of templates, which `steps` bounds.
def instantiateWithin : Nat → Heap → TemplateRef → Option (ObjectRef × ObjectRef) × Heap
  | 0, h, _ => (none, h)
  | steps + 1, h, r =>
    match h.template? r with
    | none => (none, h)
    | some template =>
      match template.function, template.prototype with
      | some function, some prototype => (some (function, prototype), h)
      | _, _ =>
        match template.parent with
        | none =>
          let (pair, h) := h.build r template none
          (some pair, h)
        | some parent =>
          match instantiateWithin steps h parent with
          | (none, h) => (none, h)
          | (some (_, inherited), h) =>
            let (pair, h) := h.build r template (some inherited)
            (some pair, h)

def instantiate (h : Heap) (r : TemplateRef) : Option (ObjectRef × ObjectRef) × Heap :=
  instantiateWithin (h.templates.slots.size + 1) h r

def templateFunction (h : Heap) (r : TemplateRef) : Option ObjectRef × Heap :=
  match h.instantiate r with
  | (none, h) => (none, h)
  | (some (function, _), h) => (some function, h.root function)

def newInstance (h : Heap) (r : TemplateRef) : Option ObjectRef × Heap :=
  match h.instantiate r with
  | (none, h) => (none, h)
  | (some (_, prototype), h) =>
    match h.template? r with
    | none => (none, h)
    | some template =>
      let (instance_, h) := h.allocate
        { body := .plain, prototype := some prototype,
          fields := if 0 < template.fieldCount then some {} else none }
      (some instance_, h)

end HostBoundary.Heap
