import HostBoundary.Heap.Arena
import HostBoundary.Heap.Object

namespace HostBoundary

-- Limits of one engine. A threshold of zero never collects on its own.
structure HeapLimits where
  gcThreshold : Nat := 0
  maxScopeDepth : Nat := 1024
  maxArrayLength : Nat := 2 ^ 24
  deriving DecidableEq, Inhabited

-- A persistent slot. A weak one does not keep its target; its hook, if any, runs when
-- the target is found unreachable.
structure Persistent where
  target : ObjectRef
  weak : Bool := false
  hook : Option ReclaimHook := none
  deriving DecidableEq

structure Heap where
  objects : Arena .object HeapObject := {}
  persistents : Arena .persistent Persistent := {}
  templates : Arena .template Template := {}
  -- Objects rooted while no scope is pushed. This scope is never popped.
  base : List ObjectRef := []
  -- The pushed scopes, innermost first.
  pushed : List (List ObjectRef) := []
  -- Pushes refused at the depth limit, matched by the next pops.
  overflow : Nat := 0
  jobs : List Job := []
  global : Option ObjectRef := none
  allocations : Nat := 0
  limits : HeapLimits := {}
  deriving Inhabited

namespace Heap

def object? (h : Heap) (r : ObjectRef) : Option HeapObject := h.objects.get? r

def isAlive (h : Heap) (r : ObjectRef) : Bool := h.objects.contains r

def liveObjects (h : Heap) : Nat := h.objects.entries.length

def modifyObject (h : Heap) (r : ObjectRef) (f : HeapObject → HeapObject) : Heap :=
  { h with objects := h.objects.modify r f }

def body? (h : Heap) (r : ObjectRef) : Option Body := (h.object? r).map (·.body)

def kind? (h : Heap) (r : ObjectRef) : Option ObjectKind := (h.body? r).map (·.kind)

def root (h : Heap) (r : ObjectRef) : Heap :=
  match h.pushed with
  | [] => { h with base := r :: h.base }
  | scope :: outer => { h with pushed := (r :: scope) :: outer }

def allocate (h : Heap) (object : HeapObject) : ObjectRef × Heap :=
  let (r, objects) := h.objects.insert object
  (r, { h with objects, allocations := h.allocations + 1 }.root r)

def scopeDepth (h : Heap) : Nat := h.pushed.length

def pushScope (h : Heap) : Heap :=
  if h.limits.maxScopeDepth ≤ h.pushed.length then { h with overflow := h.overflow + 1 }
  else { h with pushed := [] :: h.pushed }

def collectionDue (h : Heap) : Bool :=
  0 < h.limits.gcThreshold && h.limits.gcThreshold ≤ h.allocations

-- Pops a scope and tells whether a collection is due. A refused push is matched
-- first, and the base scope stays.
def popScope (h : Heap) : Bool × Heap :=
  if 0 < h.overflow then (false, { h with overflow := h.overflow - 1 })
  else match h.pushed with
    | [] => (false, h)
    | _ :: outer => (h.collectionDue, { h with pushed := outer })

def persist (h : Heap) (target : ObjectRef) : Option PersistentRef × Heap :=
  if h.isAlive target then
    let (slot, persistents) := h.persistents.insert { target }
    (some slot, { h with persistents })
  else (none, h)

-- The live target of a slot, rooted in the innermost pushed scope. With no scope pushed
-- nothing is rooted, so that a weak target stays collectable.
def target (h : Heap) (slot : PersistentRef) : Option ObjectRef × Heap :=
  match h.persistents.get? slot with
  | none => (none, h)
  | some entry =>
    if h.isAlive entry.target then
      (some entry.target, if h.pushed.isEmpty then h else h.root entry.target)
    else (none, h)

-- From now on the slot does not keep its target. The hook replaces an earlier one.
def weaken (h : Heap) (slot : PersistentRef) (hook : Option ReclaimHook) : Bool × Heap :=
  if h.persistents.contains slot then
    (true, { h with persistents := h.persistents.modify slot ({ · with weak := true, hook }) })
  else (false, h)

def dispose (h : Heap) (slot : PersistentRef) : Bool × Heap :=
  let (freed, persistents) := h.persistents.remove slot
  (freed, { h with persistents })

def template? (h : Heap) (r : TemplateRef) : Option Template := h.templates.get? r

def addTemplate (h : Heap) (template : Template) : TemplateRef × Heap :=
  let (r, templates) := h.templates.append template
  (r, { h with templates })

def modifyTemplate (h : Heap) (r : TemplateRef) (f : Template → Template) : Heap :=
  { h with templates := h.templates.modify r f }

def discardTemplate (h : Heap) (r : TemplateRef) : Heap :=
  { h with templates := h.templates.retire r }

def enqueue (h : Heap) (jobs : List Job) : Heap := { h with jobs := h.jobs ++ jobs }

end Heap

end HostBoundary
