import HostBoundary.Slot

namespace HostBoundary

-- How host code refers to an object. A transient handle is borrowed from the
-- innermost scope; a persistent one is a slot that its holder releases once.
inductive Handle where
  | transient (target : ObjectRef)
  | persistent (slot : PersistentRef)
  deriving DecidableEq

namespace Handle

def isPersistent : Handle → Bool
  | .transient _ => false
  | .persistent _ => true

-- The word form: the packed reference above, the ownership in the lowest bit.
def raw : Handle → UInt64
  | .transient target => target.bits <<< 1
  | .persistent slot => slot.bits <<< 1 ||| 1

def ofRaw? (word : UInt64) : Option Handle :=
  if word >>> 1 = 0 then none
  else if word &&& 1 = 0 then (SlotRef.ofBits? (word >>> 1)).map .transient
  else (SlotRef.ofBits? (word >>> 1)).map .persistent

def text : Handle → String
  | .transient target => "T" ++ target.text
  | .persistent slot => "P" ++ slot.text

def ofText? (text : String) : Option Handle :=
  match text.toList with
  | 'T' :: rest => (SlotRef.ofText? (String.ofList rest)).map .transient
  | 'P' :: rest => (SlotRef.ofText? (String.ofList rest)).map .persistent
  | _ => none

end Handle

end HostBoundary
