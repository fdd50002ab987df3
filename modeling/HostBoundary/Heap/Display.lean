import HostBoundary.Heap.Basic
import HostBoundary.Number.Conversion

namespace HostBoundary.Heap

-- Arrays inside arrays are spelled out this deep; a deeper one prints as nothing.
def maxDisplayDepth : Nat := 8

def errorText (name message : String) : String :=
  if message.isEmpty then name else s!"{name}: {message}"

def displayPrimitive : Value → String
  | .undefined => "undefined"
  | .null => "null"
  | .boolean b => if b then "true" else "false"
  | .int i => toString i.toInt
  | .number x => x.text
  | .string units => units.toStringLossy
  | .symbol _ => "Symbol()"
  | .bigint n => toString n.toInt
  | .object _ => "[object Object]"

def displayObject (h : Heap) : Nat → ObjectRef → String
  | depth, r =>
    match h.object? r with
    | none => "[object Object]"
    | some object =>
      match object.body with
      | .error => errorText (object.ownText "name") (object.ownText "message")
      | .function _ => "function " ++ object.ownText "name" ++ "() \x7b [native code] \x7d"
      | .promise _ => "[object Promise]"
      | .array elements =>
        match depth with
        | 0 => ""
        | rest + 1 =>
          ",".intercalate (elements.toList.map fun element =>
            match element with
            | .undefined | .null => ""
            | .object inner => displayObject h rest inner
            | primitive => displayPrimitive primitive)
      | _ => "[object Object]"

def display (h : Heap) : Value → String
  | .object target => h.displayObject maxDisplayDepth target
  | primitive => displayPrimitive primitive

end HostBoundary.Heap
