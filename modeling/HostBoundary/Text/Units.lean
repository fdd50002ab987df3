namespace HostBoundary

-- Script text is a sequence of 16-bit code units. Nothing forces the surrogates
-- in it to be paired, so it is kept apart from `String`.
abbrev Units := List UInt16

namespace Units

def isLead (u : UInt16) : Bool := 0xD800 ≤ u.toNat && u.toNat ≤ 0xDBFF

def isTrail (u : UInt16) : Bool := 0xDC00 ≤ u.toNat && u.toNat ≤ 0xDFFF

def ofChar (c : Char) : Units :=
  if c.toNat < 0x10000 then [UInt16.ofNat c.toNat]
  else
    [UInt16.ofNat (0xD800 + (c.toNat - 0x10000) / 0x400),
      UInt16.ofNat (0xDC00 + (c.toNat - 0x10000) % 0x400)]

def ofString (text : String) : Units := text.toList.flatMap ofChar

def single (u : UInt16) : Option Char :=
  if isLead u || isTrail u then none else some (Char.ofNat u.toNat)

def pair (lead trail : UInt16) : Char :=
  Char.ofNat (0x10000 + (lead.toNat - 0xD800) * 0x400 + (trail.toNat - 0xDC00))

def decode : Units → List (Option Char)
  | [] => []
  | [u] => [single u]
  | u :: v :: rest =>
    if isLead u && isTrail v then some (pair u v) :: decode rest
    else single u :: decode (v :: rest)

def toStringLossy (units : Units) : String :=
  String.ofList ((decode units).map (·.getD '�'))

def toString? (units : Units) : Option String :=
  ((decode units).mapM id).map String.ofList

end Units

end HostBoundary
