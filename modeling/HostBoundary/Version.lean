namespace HostBoundary

-- What a host may use of an environment: everything, or what the first contract had.
inductive Surface where
  | full
  | first
  deriving DecidableEq, Repr

namespace Surface

def version : Surface → Int32
  | .full => 1100
  | .first => 1000

-- The first contract is still served under its own number only; every other number
-- that is served gets the full surface.
def ofVersion (version : Int32) : Surface := if version = first.version then .first else .full

def isSupported (version : Int32) : Bool := full.version ≤ version || version = first.version

end Surface

end HostBoundary
