import HostBoundary.Heap.Basic
import HostBoundary.Number.Numeral
import HostBoundary.Tagged
import HostBoundary.Text.Blank
import HostBoundary.Version

namespace HostBoundary

structure LibrarySettings where
  soName : String := "libjsenv_heap.so"
  entrySymbol : String := "get_jsenv"
  deriving DecidableEq

structure EnvironmentSettings where
  defaultVersion : Int32 := Surface.full.version
  utf8Strings : Bool := true
  deriving DecidableEq

structure Config where
  library : LibrarySettings := {}
  environment : EnvironmentSettings := {}
  heap : HeapLimits := {}
  deriving DecidableEq

namespace Config

def readFlags (c : Config) : Flags := .ofUtf8 c.environment.utf8Strings

structure Invalid where
  key : String
  reason : String
  deriving DecidableEq

def Invalid.message (e : Invalid) : String := s!"Invalid config value for {e.key}: {e.reason}"

def invalid? (c : Config) : Option Invalid :=
  let version := c.environment.defaultVersion
  if !Surface.isSupported version then
    some ⟨"environment.default_version", s!"version {version} is not served"⟩
  else if c.library.soName.isEmpty then some ⟨"library.so_name", "must not be empty"⟩
  else if c.library.entrySymbol.isEmpty then some ⟨"library.entry_symbol", "must not be empty"⟩
  else if c.heap.maxArrayLength = 0 then some ⟨"heap.max_array_length", "must be at least 1"⟩
  else if c.heap.maxScopeDepth = 0 then some ⟨"heap.max_scope_depth", "must be at least 1"⟩
  else none

def flag? (text : String) : Option Bool :=
  let word := String.ofList ((Text.trim text.toList).map Char.toLower)
  if ["1", "true", "yes", "on"].contains word then some true
  else if ["0", "false", "no", "off"].contains word then some false
  else none

def version? (text : String) : Option Int32 :=
  (Numeral.integer? (-2 ^ 31) (2 ^ 31 - 1) (Text.trim text.toList)).map Int32.ofInt

def count? (text : String) : Option Nat :=
  (Numeral.integer? 0 (2 ^ 64 - 1) (Text.trim text.toList)).map Int.toNat

-- Variables of the process take the place of what was configured. One that does not
-- read as what it stands for is left alone, and so is an empty library name.
def override (lookup : String → Option String) (c : Config) : Config :=
  let soName := (lookup "JSENV_SO_NAME").filter (!·.isEmpty)
  let version := (lookup "JSENV_VERSION").bind version?
  let utf8 := (lookup "JSENV_UTF8").bind flag?
  let threshold := (lookup "JSENV_HEAP_GC_THRESHOLD").bind count?
  { library := { c.library with soName := soName.getD c.library.soName }
    environment :=
      { defaultVersion := version.getD c.environment.defaultVersion
        utf8Strings := utf8.getD c.environment.utf8Strings }
    heap := { c.heap with gcThreshold := threshold.getD c.heap.gcThreshold } }

end Config

end HostBoundary
