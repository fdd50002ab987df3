import HostBoundary.CommandLine.Arguments

namespace HostBoundary.CommandLine

structure HelpRow where
  spelling : String
  purpose : String

structure HelpPage where
  purpose : String
  usage : String
  commands : List HelpRow := []
  arguments : List HelpRow := []
  options : List HelpRow
  wide : Bool := false

def formatRow : HelpRow :=
  ⟨"    --format <FORMAT>", "Output format [default: text] [possible values: text, json]"⟩

def verboseRow : HelpRow := ⟨"-v, --verbose...", "Increase verbosity (-v, -vv, -vvv)"⟩

def quietRow : HelpRow := ⟨"-q, --quiet", "Suppress non-error output"⟩

def lastRows : List HelpRow :=
  [⟨"    --no-color", "Disable colored output"⟩, ⟨"-h, --help", "Print help"⟩,
    ⟨"-V, --version", "Print version"⟩]

def Topic.purpose : Topic → String
  | .program => "Run scripts and check engines through the jsenv boundary"
  | .run => "Execute a script against a fresh heap engine"
  | .handshake => "Open an engine library and negotiate versions through its entry point"
  | .config => "Print the effective configuration"

def Topic.page (t : Topic) : HelpPage :=
  match t with
  | .program =>
    { purpose := t.purpose
      usage := "jsenv [OPTIONS] [COMMAND]"
      commands :=
        [⟨"run", Topic.run.purpose⟩, ⟨"handshake", Topic.handshake.purpose⟩,
          ⟨"config", Topic.config.purpose⟩,
          ⟨"help", "Print this message or the help of the given subcommand(s)"⟩]
      options := [formatRow, verboseRow, quietRow] ++ lastRows }
  | .run =>
    { purpose := t.purpose
      usage := "jsenv run [OPTIONS] <FILE>"
      arguments := [⟨"<FILE>", "Script to execute"⟩]
      options :=
        [⟨"    --abi <ABI>", "Contract version to negotiate (defaults to the configured one)"⟩,
          formatRow,
          ⟨"    --start-line <START_LINE>",
            "Line number reported for the first line of the script [default: 1]"⟩,
          verboseRow, quietRow,
          ⟨"    --utf16", "Pass the source and read strings back as UTF-16"⟩] ++ lastRows }
  | .handshake =>
    { purpose := t.purpose
      usage := "jsenv handshake [OPTIONS]"
      options :=
        [formatRow,
          ⟨"    --library <LIBRARY>", "Engine library to open (defaults to the configured one)"⟩,
          ⟨"    --context-symbol <CONTEXT_SYMBOL>",
            "Export that creates an engine context [default: jsenv_heap_context_new]"⟩,
          verboseRow,
          ⟨"    --abi <ABI>", "Versions to request (defaults to every published version)"⟩,
          quietRow] ++ lastRows
      wide := true }
  | .config =>
    { purpose := t.purpose
      usage := "jsenv config [OPTIONS]"
      options :=
        [⟨"    --file <FILE>", "Read this file instead of searching jsenv.toml / jsenv.json"⟩,
          formatRow, verboseRow,
          ⟨"    --validate", "Fail if the configuration would be rejected"⟩,
          quietRow] ++ lastRows }

def HelpRow.block (title : String) (wide : Bool) (rows : List HelpRow) : String :=
  let width := rows.foldl (fun w row => max w row.spelling.length) 0
  let line (row : HelpRow) : String :=
    if wide then "  " ++ row.spelling ++ "\n          " ++ row.purpose ++ "\n"
    else "  " ++ String.ofList (row.spelling.toList.rightpad width ' ') ++ "  " ++ row.purpose ++ "\n"
  if rows.isEmpty then "" else "\n" ++ title ++ ":\n" ++ String.join (rows.map line)

def HelpPage.text (page : HelpPage) : String :=
  page.purpose ++ "\n\nUsage: " ++ page.usage ++ "\n" ++
    HelpRow.block "Commands" false page.commands ++
    HelpRow.block "Arguments" false page.arguments ++
    HelpRow.block "Options" page.wide page.options

def Topic.versionText (t : Topic) : String :=
  let name := match t with
    | .program => "jsenv"
    | .run => "jsenv-run"
    | .handshake => "jsenv-handshake"
    | .config => "jsenv-config"
  name ++ " 0.2.117\n"

end HostBoundary.CommandLine
