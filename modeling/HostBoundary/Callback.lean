import HostBoundary.Tagged
import HostBoundary.Version

namespace HostBoundary

structure Code where
  index : Nat
  deriving DecidableEq, Inhabited

-- A host function. A foreign one is called through the flat interface, with the surface
-- it was registered through.
structure NativeFunction where
  code : Code
  foreign : Option Surface := none
  deriving DecidableEq

structure ReclaimHook where
  code : Code
  userData : Pointer := 0
  deriving DecidableEq

structure ReleaseHook where
  code : Code
  userData : Pointer := 0
  deriving DecidableEq

-- A registered function. The owner, if any, is the receiver of every call.
structure FunctionEntry where
  function : NativeFunction
  flags : Flags
  owner : Option Handle := none
  deriving DecidableEq

inductive MemberEntry where
  | construct (function : NativeFunction) (flags : Flags) (finalizer : Option ReclaimHook)
  | method (entry : FunctionEntry)
  | property (name : String) (getter setter : Option NativeFunction) (flags : Flags)
  deriving DecidableEq

inductive TableKind where
  | domain
  | function
  | member
  deriving DecidableEq

def TableKind.code : TableKind → UInt64
  | .domain => 1
  | .function => 2
  | .member => 3

def TableKind.ofCode? (code : UInt64) : Option TableKind :=
  [.domain, .function, .member].find? (·.code = code)

def TableKind.name : TableKind → String
  | .domain => "Domain"
  | .function => "Function"
  | .member => "Member"

-- The integer that the engine keeps for a callback and hands back unchanged.
structure CallbackData where
  word : UInt64
  deriving DecidableEq, Inhabited

namespace CallbackData

def encode (kind : TableKind) (index : UInt32) : CallbackData :=
  ⟨kind.code <<< 32 ||| index.toUInt64⟩

def decode? (data : CallbackData) : Option (TableKind × UInt32) :=
  if data.word >>> 40 != 0 then none
  else
    (TableKind.ofCode? (data.word >>> 32)).map (·, data.word.toUInt32)

end CallbackData

inductive Callback where
  | domain (entry : FunctionEntry)
  | function (entry : FunctionEntry)
  | member (entry : MemberEntry)
  deriving DecidableEq

-- Registrations are only ever appended, so a position keeps its meaning.
structure CallbackTables where
  domains : Array FunctionEntry := #[]
  functions : Array FunctionEntry := #[]
  members : Array MemberEntry := #[]
  deriving Inhabited

namespace CallbackTables

def registerDomain (t : CallbackTables) (entry : FunctionEntry) : CallbackData × CallbackTables :=
  (.encode .domain (UInt32.ofNat t.domains.size), { t with domains := t.domains.push entry })

def registerFunction (t : CallbackTables) (entry : FunctionEntry) : CallbackData × CallbackTables :=
  (.encode .function (UInt32.ofNat t.functions.size), { t with functions := t.functions.push entry })

def registerMember (t : CallbackTables) (entry : MemberEntry) : CallbackData × CallbackTables :=
  (.encode .member (UInt32.ofNat t.members.size), { t with members := t.members.push entry })

def lookup? (t : CallbackTables) (data : CallbackData) : Option Callback :=
  match data.decode? with
  | none => none
  | some (.domain, index) => t.domains[index.toNat]?.map .domain
  | some (.function, index) => t.functions[index.toNat]?.map .function
  | some (.member, index) => t.members[index.toNat]?.map .member

end CallbackTables

end HostBoundary
