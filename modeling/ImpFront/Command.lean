import ImpFront.Diagnostic.Render
import ImpFront.Log
import ImpFront.Outline.Build
import ImpFront.Parse.Program
import ImpFront.Syntax.Record
/-!
# ImpFront.Command

The **command line**: it reads one file, shows the views that flags ask for, and
reports refusals beside the source. Without a flag the program is printed back.

The command runs against a `Host`, which says how to write, to read a file, to look
up a setting and to measure time. What is written, and in which order, is decided
here; the host decides nothing.
-/

namespace ImpFront

/-! ### Options -/

/-- What the arguments ask for. -/
structure Options where
  file : String
  tokens : Bool
  tree : Bool
  outline : Bool
  deriving DecidableEq, Repr, Inhabited

/-- Arguments that make no sense. -/
inductive UsageError where
  | unknownFlag (flag : String)
  | secondFile
  | noFile
  deriving DecidableEq, Repr

namespace UsageError

/-- What is wrong with the arguments. -/
def message : UsageError → String
  | unknownFlag flag => "unknown flag `" ++ flag ++ "`"
  | secondFile => "only one input file is accepted"
  | noFile => "missing input file"

/-- How the command is called. -/
def usage : String := "usage: minilang <file> [--tokens] [--ast] [--outline]"

end UsageError

namespace Options

/-- Reads arguments from left to right; an argument without two dashes in front is the file. -/
def read (file : Option String) (tokens tree outline : Bool) :
    List String → Except UsageError Options
  | [] =>
    match file with
    | some file => .ok ⟨file, tokens, tree, outline⟩
    | none => .error .noFile
  | argument :: rest =>
    if argument = "--tokens" then read file true tree outline rest
    else if argument = "--ast" then read file tokens true outline rest
    else if argument = "--outline" then read file tokens tree true rest
    else if argument.startsWith "--" then .error (.unknownFlag argument)
    else if file.isSome then .error .secondFile
    else read (some argument) tokens tree outline rest

/-- The options that arguments give. -/
def ofArguments (arguments : List String) : Except UsageError Options :=
  read none false false false arguments

/-- Whether the program itself is printed: when no other view is asked for. -/
def printsSource (o : Options) : Bool := !(o.tokens || o.tree || o.outline)

/-- The name of the file without the directories before it. -/
def fileName (o : Options) : String :=
  String.ofList (o.file.toList.reverse.takeWhile (· ≠ '/')).reverse

end Options

/-! ### Hosts -/

/-- Why a file cannot be read. -/
inductive ReadFailure where
  /-- The system refuses, with a reason and its number. -/
  | system (reason : String) (code : Nat)
  /-- The bytes of the file are no text. -/
  | notText
  deriving DecidableEq, Repr

/-- The reason in words. -/
def ReadFailure.message : ReadFailure → String
  | system reason code => reason ++ " (os error " ++ toString code ++ ")"
  | notText => "stream did not contain valid UTF-8"

/-- What the command needs from its surroundings. -/
structure Host (m : Type → Type) where
  /-- Writes to the standard output. -/
  print : String → m Unit
  /-- Writes to the standard error. -/
  report : String → m Unit
  /-- Looks up a setting by name. -/
  setting : String → m (Option String)
  /-- Reads a file. -/
  load : String → m (Except ReadFailure ByteArray)
  /-- Starts a watch; the result tells the time since then. -/
  startWatch : m (m String)
  /-- The time of day, for notes. -/
  time : m String

namespace Command

variable {m : Type → Type} [Monad m]

/-- The name of the setting that chooses the level of the log. -/
def logName : String := "MINILANG_LOG"

/-- Writes a note, if the log shows its level. -/
def log (host : Host m) (limit : Level) (note : Note) : m Unit := do
  if limit.shownAt note.level then
    host.report (note.line (← host.time) ++ "\n")

/-- The text of a file. -/
def readText (host : Host m) (file : String) : m (Except ReadFailure String) := do
  match ← host.load file with
  | .error failure => return .error failure
  | .ok bytes =>
    match String.fromUTF8? bytes with
    | some text => return .ok text
    | none => return .error .notText

/-- The settings of the parse; refused ones are remarked on and ignored. -/
def readSettings (host : Host m) (limit : Level) : m Settings := do
  let value ← host.setting Settings.maxDepthName
  match Settings.ofValues fun name => if name = Settings.maxDepthName then value else none with
  | .ok settings => return settings
  | .error error =>
    log host limit ⟨.warn, "ignoring invalid configuration", [("error", error.message)]⟩
    return .standard

/-- Shows the views of a program. -/
def showProgram (host : Host m) (limit : Level) (options : Options) (program : Program) :
    m Unit := do
  if options.tree then host.print (program.listing ++ "\n")
  if options.outline then
    let outline := program.outline
    log host limit ⟨.debug, "built outline",
      [("globals", toString outline.globals.length),
        ("functions", toString outline.functions.length)]⟩
    host.print outline.text
  if options.printsSource then host.print program.text

/-- Processes a source. -/
def process (host : Host m) (limit : Level) (options : Options) (settings : Settings)
    (source : String) : m (Except Diagnostic Unit) := do
  let total ← host.startWatch
  match Token.scan source with
  | .error refusal => return .error refusal
  | .ok tokens =>
    host.report ("Tokenized in " ++ (← total) ++ "\n")
    log host limit ⟨.debug, "tokenized", [("tokens", toString tokens.length)]⟩
    if options.tokens then
      for t in tokens do host.print (t.listing ++ "\n")
    let watch ← host.startWatch
    let outcome := Program.parseTokens settings tokens
    for note in outcome.state.notes.reverse do log host limit note
    match outcome with
    | .error refusal _ => return .error refusal
    | .ok program _ =>
      host.report ("Parsed in " ++ (← watch) ++ "\n")
      showProgram host limit options program
      host.report ("Total time: " ++ (← total) ++ "\n")
      return .ok ()

/-- Runs the command on its arguments; the result is the exit code. -/
def run (host : Host m) (arguments : List String) : m UInt32 := do
  let limit := Level.ofSetting (← host.setting logName)
  match Options.ofArguments arguments with
  | .error error =>
    host.report (error.message ++ "\n" ++ UsageError.usage ++ "\n")
    return 1
  | .ok options =>
    let settings ← readSettings host limit
    match ← readText host options.file with
    | .error failure =>
      host.report ("Failed to read " ++ options.file ++ ": " ++ failure.message ++ "\n")
      return 1
    | .ok source =>
      match ← process host limit options settings source with
      | .ok () => return 0
      | .error refusal =>
        log host limit ⟨.warn, "parse failed", [("error", refusal.message)]⟩
        host.report (refusal.render source options.fileName ++ "\n")
        return 1

end Command

end ImpFront
