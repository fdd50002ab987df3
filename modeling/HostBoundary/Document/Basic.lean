import HostBoundary.Directory
import HostBoundary.Number.Binary

namespace HostBoundary

-- A structured document. The entries of an object are a directory: sorted by key, one
-- for each.
inductive Document where
  | null
  | boolean (b : Bool)
  | integer (n : Int)
  | float (x : Binary64)
  | text (s : String)
  | array (items : List Document)
  | object (entries : List (String × Document))
  deriving Inhabited

end HostBoundary
