import HostBoundary.Config.Json
import HostBoundary.Config.Toml
import HostBoundary.Files

namespace HostBoundary.Config

inductive LoadError where
  | unreadable (e : ReadError)
  | notToml (reason : String)
  | notJson (reason : String)
  deriving DecidableEq

namespace LoadError

def reason : LoadError → String
  | .unreadable e => e.message
  | .notToml reason => reason
  | .notJson reason => reason

def message : LoadError → String
  | .unreadable e => "Failed to read config file: " ++ e.message
  | .notToml reason => "Failed to parse TOML config: " ++ reason
  | .notJson reason => "Failed to parse JSON config: " ++ reason

end LoadError

def loadToml (files : Files) (path : String) : Except LoadError Config := do
  let source ← (files.read path).mapError .unreadable
  (ofToml source).mapError fun fault => .notToml (fault.message source)

def loadJson (files : Files) (path : String) : Except LoadError Config := do
  let source ← (files.read path).mapError .unreadable
  (ofJson source).mapError fun fault => .notJson (fault.message source)

def load (files : Files) (path : String) : Except LoadError Config :=
  if extension? path = some "json" then loadJson files path else loadToml files path

def searched : List String := ["jsenv.toml", "jsenv.json"]

def search (files : Files) : Config :=
  (searched.findSome? fun path => (load files path).toOption).getD {}

end HostBoundary.Config
