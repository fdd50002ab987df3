import HostBoundary.Environment.Conversion
import HostBoundary.Heap.View

namespace HostBoundary.Environment

variable {σ : Type}

def globalOf (n : EnvironmentId) : Act σ ObjectRef := do
  return (← heapOf n).global.getD default

def globalObject (n : EnvironmentId) : Act σ Handle := do return wrap (← globalOf n)

def getOn (host : Host σ) (n : EnvironmentId) (r : ObjectRef) (key : Tagged) (flags : Flags) :
    Act σ (Option Tagged) := do
  let some key ← toValue n key | return none
  deliver n flags (← Engine.getProperty host (← engineOf n) r key)

def setOn (host : Host σ) (n : EnvironmentId) (r : ObjectRef) (key value : Tagged) : Act σ Bool := do
  let key ← toValue n key
  let value ← toValue n value
  match key, value with
  | some key, some value =>
    succeeded n (← Engine.setProperty host (← engineOf n) r key value)
  | _, _ => return false

def getGlobal (host : Host σ) (n : EnvironmentId) (key : Tagged) (flags : Flags) :
    Act σ (Option Tagged) := do
  getOn host n (← globalOf n) key flags

def setGlobal (host : Host σ) (n : EnvironmentId) (key value : Tagged) : Act σ Bool := do
  setOn host n (← globalOf n) key value

def getProperty (host : Host σ) (n : EnvironmentId) (object : Handle) (key : Tagged)
    (flags : Flags) : Act σ (Option Tagged) := do
  let some r ← resolve n object | return none
  getOn host n r key flags

def setProperty (host : Host σ) (n : EnvironmentId) (object : Handle) (key value : Tagged) :
    Act σ Bool := do
  let some r ← resolve n object | return false
  setOn host n r key value

def getIndex (host : Host σ) (n : EnvironmentId) (object : Handle) (index : UInt32)
    (flags : Flags) : Act σ (Option Tagged) := do
  let some r ← resolve n object | return none
  deliver n flags (← Engine.getProperty host (← engineOf n) r (.ofInt index.toNat))

def setIndex (host : Host σ) (n : EnvironmentId) (object : Handle) (index : UInt32)
    (value : Tagged) : Act σ Bool := do
  let r ← resolve n object
  let value ← toValue n value
  match r, value with
  | some r, some value =>
    succeeded n (← Engine.setProperty host (← engineOf n) r (.ofInt index.toNat) value)
  | _, _ => return false

def fill (host : Host σ) (n : EnvironmentId) (array : ObjectRef) (index : Nat) :
    List Value → Act σ Bool
  | [] => pure true
  | value :: rest => do
    if ← succeeded n
        (← Engine.setProperty host (← engineOf n) array (.ofInt index) value) then
      fill host n array (index + 1) rest
    else return false

def arrayOf (host : Host σ) (n : EnvironmentId) (values : List Value) : Act σ (Option Handle) := do
  let array ← onHeap n (·.newArray values.length)
  if ← fill host n array 0 values then return some (wrap array) else return none

def propertyNames (host : Host σ) (n : EnvironmentId) (object : Handle) :
    Act σ (Option Handle) := do
  let some names ← inspect n object (·.ownNames?) | return none
  arrayOf host n names

def newArrayWithValues (host : Host σ) (n : EnvironmentId) (values : List Tagged) :
    Act σ (Option Handle) := do
  let some values ← toValues n values | return none
  arrayOf host n values

def length (n : EnvironmentId) (object : Handle) : Act σ Nat := do
  let found ← inspect n object fun h r =>
    h.arrayLength? r <|> (h.typedArray? r).map (·.length) <|> (h.contents? r).map (·.size)
  return found.getD 0

end HostBoundary.Environment
