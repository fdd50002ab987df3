import HostBoundary.CommandLine.Program

namespace HostBoundary.CommandLine

def readFile (path : String) : IO (Except ReadError (List UInt8)) := do
  try
    return .ok (← IO.FS.readBinFile path).toList
  catch e =>
    let code? : Option UInt32 := match e with
      | .noFileOrDirectory _ code _ => some code
      | .inappropriateType _ code _ => some code
      | .invalidArgument _ code _ => some code
      | _ => none
    match code?.bind fun code => SystemError.ofCode? code.toInt32.toInt.natAbs with
    | some known => return .error (.system known)
    | none => return .error (.other (toString e))

def lookAround (args : List String) : IO Surroundings := do
  let bindings ← variableNames.filterMapM fun name => do
    return (← IO.getEnv name).map (name, ·)
  let paths := match Invocation.ofArguments args with
    | .ok i => i.paths
    | .error _ => []
  let files ← paths.mapM fun path => do return (path, ← readFile path)
  return { bindings, files }

end HostBoundary.CommandLine

open HostBoundary.CommandLine in
def main (args : List String) : IO UInt32 := do
  let outcome := run args (← lookAround args)
  IO.print outcome.stdout
  IO.eprint outcome.stderr
  return outcome.code
