import HostBoundary.Number.Numeral

namespace HostBoundary.CommandLine

inductive Format where
  | text
  | json
  deriving DecidableEq

structure RunOptions where
  file : String
  version : Option Int32 := none
  startLine : Int32 := 1
  utf16 : Bool := false
  deriving DecidableEq

structure HandshakeOptions where
  library : Option String := none
  contextSymbol : String := "jsenv_heap_context_new"
  versions : List Int32 := []
  deriving DecidableEq

structure ConfigOptions where
  file : Option String := none
  validate : Bool := false
  deriving DecidableEq

inductive Command where
  | run (options : RunOptions)
  | handshake (options : HandshakeOptions)
  | config (options : ConfigOptions)
  deriving DecidableEq

structure Invocation where
  command : Option Command
  format : Format
  quiet : Bool
  deriving DecidableEq

inductive Topic where
  | program
  | run
  | handshake
  | config
  deriving DecidableEq

inductive Stop where
  | misuse
  | version (of : Topic)
  | help (of : Topic)
  deriving DecidableEq

inductive Effect (α : Type) where
  | flag (put : α → α)
  | counter
  | value (repeatable : Bool) (put : String → α → Option α)

structure OptionSpec (α : Type) where
  long : String
  short : Option Char := none
  effect : Effect α

inductive Reception (α : Type) where
  | taken (settings : α)
  | refused
  | command

structure Grammar (α : Type) where
  topic : Topic
  options : List (OptionSpec α)
  word : String → α → Reception α

namespace Grammar

variable {α : Type}

structure Progress (α : Type) where
  settings : α
  used : List String := []

def applyFlag (p : Progress α) (o : OptionSpec α) : Except Stop (Progress α) :=
  match o.effect with
  | .flag put =>
    if p.used.contains o.long then .error .misuse
    else .ok ⟨put p.settings, o.long :: p.used⟩
  | .counter => .ok p
  | .value _ _ => .error .misuse

def applyValue (p : Progress α) (o : OptionSpec α) (value : String) : Except Stop (Progress α) :=
  match o.effect with
  | .value repeatable put =>
    if !repeatable && p.used.contains o.long then .error .misuse
    else
      match put value p.settings with
      | some settings => .ok ⟨settings, o.long :: p.used⟩
      | none => .error .misuse
  | _ => .error .misuse

def applyLetters (s : Grammar α) : List Char → Progress α → Except Stop (Progress α)
  | [], p => .ok p
  | c :: rest, p =>
    match s.options.find? (·.short = some c) with
    | some o => do applyLetters s rest (← applyFlag p o)
    | none =>
      if c = 'h' then .error (.help s.topic)
      else if c = 'V' then .error (.version s.topic)
      else .error .misuse

def isDashed (word : String) : Bool := word.startsWith "-" && word ≠ "-"

def splitLong (word : String) : String × Option String :=
  let body := word.toList.drop 2
  let name := body.takeWhile (· ≠ '=')
  match body.dropWhile (· ≠ '=') with
  | [] => (String.ofList name, none)
  | _ :: value => (String.ofList name, some (String.ofList value))

def receive (s : Grammar α) (word : String) (p : Progress α) :
    Except Stop (Option (Progress α)) :=
  match s.word word p.settings with
  | .taken settings => .ok (some { p with settings })
  | .refused => .error .misuse
  | .command => .ok none

def plainWords (s : Grammar α) : List String → Progress α → Except Stop (Progress α)
  | [], p => .ok p
  | word :: rest, p => do
    match ← receive s word p with
    | some p => plainWords s rest p
    | none => .error .misuse

-- Reads arguments up to the end or to a command, and gives what is left. The first
-- thing that stops the reading decides.
def read (s : Grammar α) : List String → Progress α → Except Stop (α × List String)
  | [], p => .ok (p.settings, [])
  | word :: rest, p =>
    if word = "--" then do
      return ((← plainWords s rest p).settings, [])
    else if word.startsWith "--" then
      let (name, attached) := splitLong word
      match s.options.find? (·.long = name) with
      | none =>
        if attached.isSome then .error .misuse
        else if name = "help" then .error (.help s.topic)
        else if name = "version" then .error (.version s.topic)
        else .error .misuse
      | some o =>
        match o.effect, attached with
        | .value _ _, some value => do read s rest (← applyValue p o value)
        | .value _ _, none =>
          match rest with
          | [] => .error .misuse
          | value :: rest =>
            if isDashed value then .error .misuse
            else do read s rest (← applyValue p o value)
        | _, some _ => .error .misuse
        | _, none => do read s rest (← applyFlag p o)
    else if isDashed word then do
      read s rest (← applyLetters s (word.toList.drop 1) p)
    else do
      match ← receive s word p with
      | some p => read s rest p
      | none => return (p.settings, word :: rest)

end Grammar

structure Common where
  format : Option Format := none
  quiet : Bool := false
  deriving DecidableEq

def Common.over (after before : Common) : Common :=
  ⟨after.format <|> before.format, after.quiet || before.quiet⟩

def format? (text : String) : Option Format :=
  if text = "text" then some .text else if text = "json" then some .json else none

def int32? (text : String) : Option Int32 :=
  (Numeral.integer? (-2 ^ 31) (2 ^ 31 - 1) text.toList).map Int32.ofInt

def path? (text : String) : Option String := if text.isEmpty then none else some text

def commonOptions {α : Type} : List (OptionSpec (Common × α)) :=
  [{ long := "format"
     effect := .value false fun text (c, x) => (format? text).map fun f => ({ c with format := some f }, x) },
    { long := "verbose", short := some 'v', effect := .counter },
    { long := "quiet", short := some 'q', effect := .flag fun (c, x) => ({ c with quiet := true }, x) },
    { long := "no-color", effect := .flag id }]

def programGrammar : Grammar (Common × Unit) where
  topic := .program
  options := commonOptions
  word word _ := if ["run", "handshake", "config", "help"].contains word then .command else .refused

abbrev RunSettings := Option String × RunOptions

def runGrammar : Grammar (Common × RunSettings) where
  topic := .run
  options := commonOptions ++
    [{ long := "abi"
       effect := .value false fun text (c, file, o) =>
         (int32? text).map fun v => (c, file, { o with version := some v }) },
      { long := "start-line"
        effect := .value false fun text (c, file, o) =>
          (int32? text).map fun startLine => (c, file, { o with startLine }) },
      { long := "utf16", effect := .flag fun (c, file, o) => (c, file, { o with utf16 := true }) }]
  word word
    | (c, none, o) =>
      match path? word with
      | some file => .taken (c, some file, o)
      | none => .refused
    | _ => .refused

def handshakeGrammar : Grammar (Common × HandshakeOptions) where
  topic := .handshake
  options := commonOptions ++
    [{ long := "library"
       effect := .value false fun text (c, o) =>
         (path? text).map fun library => (c, { o with library := some library }) },
      { long := "context-symbol"
        effect := .value false fun contextSymbol (c, o) => some (c, { o with contextSymbol }) },
      { long := "abi"
        effect := .value true fun text (c, o) =>
          ((text.splitOn ",").mapM int32?).map fun more =>
            (c, { o with versions := o.versions ++ more }) }]
  word _ _ := .refused

def configGrammar : Grammar (Common × ConfigOptions) where
  topic := .config
  options := commonOptions ++
    [{ long := "file"
       effect := .value false fun text (c, o) =>
         (path? text).map fun file => (c, { o with file := some file }) },
      { long := "validate", effect := .flag fun (c, o) => (c, { o with validate := true }) }]
  word _ _ := .refused

def helpTopic : List String → Stop
  | [] => .help .program
  | ["run"] => .help .run
  | ["handshake"] => .help .handshake
  | ["config"] => .help .config
  | _ => .misuse

def readCommand (name : String) (args : List String) : Except Stop (Common × Command) :=
  match name with
  | "run" => do
    let ((c, file, o), _) ← runGrammar.read args ⟨({}, none, { file := "" }), []⟩
    match file with
    | some file => return (c, .run { o with file })
    | none => throw .misuse
  | "handshake" => do
    let ((c, o), _) ← handshakeGrammar.read args ⟨({}, {}), []⟩
    return (c, .handshake o)
  | "config" => do
    let ((c, o), _) ← configGrammar.read args ⟨({}, {}), []⟩
    return (c, .config o)
  | _ => throw (helpTopic args)

def Invocation.ofArguments (args : List String) : Except Stop Invocation := do
  let ((before, _), rest) ← programGrammar.read args ⟨({}, ()), []⟩
  match rest with
  | [] => return ⟨none, before.format.getD .text, before.quiet⟩
  | name :: rest =>
    let (after, command) ← readCommand name rest
    let common := after.over before
    return ⟨some command, common.format.getD .text, common.quiet⟩

end HostBoundary.CommandLine
