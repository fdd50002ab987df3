import HostBoundary.Exception
import HostBoundary.Heap.Display

namespace HostBoundary

inductive ErrorName where
  | error
  | typeError
  | rangeError
  | syntaxError
  deriving DecidableEq

def ErrorName.text : ErrorName → String
  | .error => "Error"
  | .typeError => "TypeError"
  | .rangeError => "RangeError"
  | .syntaxError => "SyntaxError"

namespace Heap

-- An error object carries its name, message and stack as properties that do not
-- show up among its names.
def errorObject (name : ErrorName) (message : String) : HeapObject :=
  ((HeapObject.ofBody .error).defineHidden "name" (.text name.text)
    |>.defineHidden "message" (.text message)
    |>.defineHidden "stack" (.text (errorText name.text message ++ "\n    at <native>")))

def newError (h : Heap) (name : ErrorName) (message : String) : Value × Heap :=
  let (r, h) := h.allocate (errorObject name message)
  (.object r, h)

def throwing (h : Heap) (value : Value) : Throw where
  value
  text := h.display value
  stack := (value.object?.bind h.object?).bind fun object =>
    match object.ownData? "stack" with
    | some (.string units) => some units.toStringLossy
    | _ => none

def raise (h : Heap) (name : ErrorName) (message : String) : Throw × Heap :=
  let (value, h) := h.newError name message
  (h.throwing value, h)

end Heap

end HostBoundary
