import HostBoundary.CommandLine.Handshake
import HostBoundary.CommandLine.Help
import HostBoundary.CommandLine.Run

namespace HostBoundary.CommandLine

structure Surroundings where
  bindings : List (String × String) := []
  files : Files := []

def Surroundings.lookup (s : Surroundings) (name : String) : Option String := s.bindings.lookup name

def variableNames : List String :=
  ["JSENV_SO_NAME", "JSENV_VERSION", "JSENV_UTF8", "JSENV_HEAP_GC_THRESHOLD"]

def Invocation.paths (i : Invocation) : List String :=
  match i.command with
  | some (.run options) => options.file :: Config.searched
  | some (.config { file := some path, .. }) => [path]
  | some (.handshake { library := some path, .. }) => path :: Config.searched
  | _ => Config.searched

def printConfig (s : Surroundings) (options : ConfigOptions) (format : Format) :
    Except Failure Printed := do
  let config ← match options.file with
    | some path =>
      (Config.load s.files path).mapError fun e =>
        (⟨"failed to load " ++ path, [e.message, e.reason]⟩ : Failure)
    | none => pure (Config.search s.files)
  let config := config.override s.lookup
  if options.validate then
    if let some e := config.invalid? then throw ⟨"configuration rejected", [e.message]⟩
  match format with
  | .json => return { stdout := config.document.pretty ++ "\n" }
  | .text =>
    match config.toml? with
    | some text => return { stdout := text }
    | none => throw ⟨"Failed to serialize TOML config: " ++ Config.unwritable, [Config.unwritable]⟩

def execute (s : Surroundings) (i : Invocation) : Except Failure Printed :=
  let config := (Config.search s.files).override s.lookup
  match i.command with
  | none => .ok { stdout := Topic.program.page.text ++ "\n" }
  | some (.run options) => runScript config s.files options i.format i.quiet
  | some (.handshake options) => handshake config s.files options i.format
  | some (.config options) => printConfig s options i.format

def Stop.outcome : Stop → Outcome
  | .misuse => { code := 2, stderr := "Usage: " ++ Topic.program.page.usage ++ "\n" }
  | .version topic => { stdout := topic.versionText }
  | .help topic => { stdout := topic.page.text }

def run (args : List String) (s : Surroundings) : Outcome :=
  match Invocation.ofArguments args with
  | .error stop => stop.outcome
  | .ok i =>
    match execute s i with
    | .ok printed => printed.outcome
    | .error failure => Printed.outcome { failure := some failure }

end HostBoundary.CommandLine
