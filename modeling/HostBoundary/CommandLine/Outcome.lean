namespace HostBoundary.CommandLine

structure Outcome where
  code : UInt32 := 0
  stdout : String := ""
  stderr : String := ""
  deriving DecidableEq

structure Failure where
  message : String
  causes : List String := []
  deriving DecidableEq

namespace Failure

def indented (first rest cause : String) : String :=
  first ++ String.intercalate ("\n" ++ rest) (cause.splitOn "\n")

def numbered (index : Nat) (cause : String) : String :=
  indented (String.ofList (List.leftpad 5 ' ' (toString index).toList) ++ ": ") "       " cause

def causeLines : List String → List String
  | [] => []
  | [cause] => ["", "Caused by:", indented "    " "    " cause]
  | causes => "" :: "Caused by:" :: causes.mapIdx numbered

def report (f : Failure) : String :=
  String.join ((("Error: " ++ f.message) :: causeLines f.causes).map (· ++ "\n"))

end Failure

structure Printed where
  stdout : String := ""
  stderr : String := ""
  failure : Option Failure := none
  deriving DecidableEq

def Printed.outcome (p : Printed) : Outcome :=
  match p.failure with
  | none => ⟨0, p.stdout, p.stderr⟩
  | some failure => ⟨1, p.stdout, p.stderr ++ failure.report⟩

end HostBoundary.CommandLine
