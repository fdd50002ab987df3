import HostBoundary.CommandLine.Arguments
import HostBoundary.CommandLine.Describe
import HostBoundary.CommandLine.Outcome
import HostBoundary.Config.Source
import HostBoundary.Document.Printer
import HostBoundary.Engine.Jobs

namespace HostBoundary.CommandLine

def maxDepth : Nat := 16

-- Runs a script on a fresh engine, through an environment of the given version. Through
-- the surface of the first version the result is not taken apart. Nothing, if the
-- version is not served.
def evaluate (limits : HeapLimits) (version : Int32) (code : Tagged) (file : String)
    (startLine : Int32) (flags : Flags) : Option (Except Exception Document) :=
  let act : Act Unit (Option (Except Exception Document)) := do
    let engine ← modifyGet (·.addEngine { heap := .fresh limits, held := true })
    let some env ← Environment.negotiate engine version | return none
    let n := env.environment
    let readFlags := match env.surface with
      | .full => flags
      | .first => 0
    match ← Environment.executeScript n code (some file) startLine.toInt readFlags with
    | none => return some (.error (← Act.environment n).exception)
    | some value =>
      match env.surface with
      | .full =>
        Engine.runMicrotasks .inert engine
        return some (.ok (← describe .inert n flags maxDepth value))
      | .first => return some (.ok (describePrimitive value))
  (act { host := () }).1

def runReport (format : Format) (quiet : Bool) (version : Int32) (file : String)
    (result : Except Exception Document) : Printed :=
  let failed : Failure := { message := file ++ " failed" }
  match format, result with
  | .text, .ok document => if quiet then {} else { stdout := document.pretty ++ "\n" }
  | .text, .error e =>
    { stderr := "Uncaught " ++ e.kind.name ++ "\n" ++ e.message ++ "\n", failure := some failed }
  | .json, .ok document =>
    let report : Document :=
      .object [("result", document), ("success", .boolean true), ("version", .integer version.toInt)]
    { stdout := report.pretty ++ "\n" }
  | .json, .error e =>
    let report : Document :=
      .object
        [("exception",
            .object [("kind", .integer e.kind.code.toInt), ("message", .text e.message)]),
          ("success", .boolean false), ("version", .integer version.toInt)]
    { stdout := report.pretty ++ "\n", failure := some failed }

def runScript (config : Config) (files : Files) (options : RunOptions) (format : Format)
    (quiet : Bool) : Except Failure Printed := do
  if let some e := config.invalid? then
    throw ⟨"invalid jsenv configuration", [e.message]⟩
  let version := options.version.getD config.environment.defaultVersion
  let source ← (files.read options.file).mapError fun e =>
    ⟨"failed to read " ++ options.file, [e.message]⟩
  let code := if options.utf16 then .utf16 (Units.ofString source) else .utf8 source
  let flags := if options.utf16 then 0 else config.readFlags
  match evaluate config.heap version code options.file options.startLine flags with
  | some result => return runReport format quiet version options.file result
  | none => throw { message := s!"engine does not serve jsenv version {version}" }

end HostBoundary.CommandLine
