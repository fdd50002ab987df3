import HostBoundary.CommandLine.Arguments
import HostBoundary.CommandLine.Outcome
import HostBoundary.Config.Basic
import HostBoundary.Document.Printer
import HostBoundary.Files
import HostBoundary.Foreign.Context

namespace HostBoundary.CommandLine

def engineLibrary : String := "libjsenv_heap.so"

def headerSize : Nat := 64

def unopened (files : Files) (library : String) : String :=
  let opening (e : SystemError) : String := "cannot open shared object file: " ++ e.text
  if !library.contains '/' then
    opening (if maxName < library.utf8ByteSize then .nameTooLong else .missing)
  else
    match files.contents library with
    | .ok bytes => if bytes.length < headerSize then "file too short" else "invalid ELF header"
    | .error (.system .directory) => "cannot read file data: " ++ SystemError.directory.text
    | .error (.system e) => opening e
    | .error e => "cannot open shared object file: " ++ e.message

def publishedVersions : List Int32 := [Surface.full.version, Surface.first.version]

def negotiateAll (versions : List Int32) : List (Int32 × Option Int32) :=
  let act : Act Unit (List (Int32 × Option Int32)) := do
    let context ← Foreign.newContext {}
    let attempts ← versions.mapM fun requested => do
      match ← Foreign.getEnvironment context requested with
      | some env =>
        Foreign.release .inert env
        return (requested, some env.surface.version)
      | none => return (requested, none)
    discard (Foreign.endContext .inert context)
    return attempts
  (act { host := () }).1

def attemptLine : Int32 × Option Int32 → String
  | (requested, some version) => s!"  [OK] version {requested}: served as {version}\n"
  | (requested, none) => s!"  [FAIL] version {requested}: refused\n"

def attemptDocument : Int32 × Option Int32 → Document
  | (requested, version) =>
    .object
      [("requested", .integer requested.toInt), ("served", .boolean version.isSome),
        ("version", version.elim .null fun v => .integer v.toInt)]

def handshake (config : Config) (files : Files) (options : HandshakeOptions) (format : Format) :
    Except Failure Printed := do
  let library := options.library.getD config.library.soName
  let config := { config with library := { config.library with soName := library } }
  let failed := "failed to load " ++ library
  if let some e := config.invalid? then throw ⟨failed, [e.message]⟩
  if library ≠ engineLibrary then
    let reason := library ++ ": " ++ unopened files library
    throw ⟨failed, ["failed to open shared library " ++ library ++ ": " ++ reason, reason]⟩
  let versions := if options.versions.isEmpty then publishedVersions else options.versions
  let attempts := negotiateAll versions
  match format with
  | .text =>
    return { stdout := "jsenv handshake: " ++ library ++ "\n\n" ++ String.join (attempts.map attemptLine) }
  | .json =>
    let report : Document :=
      .object
        [("entry_symbol", .text config.library.entrySymbol), ("library", .text library),
          ("versions", .array (attempts.map attemptDocument))]
    return { stdout := report.pretty ++ "\n" }

end HostBoundary.CommandLine
