/-
The interpreter as a command: from arguments, files and input to output and an exit status.

Program files run one after another, each on a fresh machine, and the first error ends the
command.  Without files the program itself is read from the input.  Errors of programs and files
are reported and give status 1; what nobody reports escapes as it is.

`Job.next` is one turn of a command at work; `command` takes turns until the command is over.
-/
import MatrixStack.Files.Tree
import MatrixStack.Interpreter.Arguments
import MatrixStack.Interpreter.Run
import MatrixStack.Program.Reading

namespace MatrixStack
namespace Interpreter

/-- A failure that is not reported. -/
inductive Escape where
  | undecodable (cause : Utf8.Fault)
  | unprintable
  | fault (cause : Fault)
  | nullByte
  | untyped
  | uncounted
  deriving DecidableEq

def Escape.message : Escape → String
  | .undecodable cause => cause.message
  | .unprintable => Decimal.unprintableMessage
  | .fault cause => cause.message
  | .nullByte => FileError.nullByte.message
  | .untyped => Options.untypedMessage
  | .uncounted => "'>=' not supported between instances of 'int' and 'list'"

inductive Exit where
  | status (code : Nat)
  | escaped (cause : Escape)
  deriving DecidableEq

structure Outcome where
  exit : Exit
  terminal : Terminal
  deriving DecidableEq

/-- Write an error, unless errors are suppressed, and fail. -/
def report (a : Arguments) (t : Terminal) (message : String) : Outcome :=
  ⟨.status 1, if a.suppress then t else t.warnLine message⟩

def settings (a : Arguments) (piped : Bool) : Settings := ⟨piped, a.suppress, a.maxSteps.join⟩

/-- What the command makes of the end of a run; `none` means that it goes on. -/
def conclude (a : Arguments) (r : Result) : Option Outcome :=
  match r.ending with
  | .stopped | .capped => none
  | .unanswered cause => some (report a r.terminal cause.message)
  | .undecodable cause => some ⟨.escaped (.undecodable cause), r.terminal⟩
  | .unprintable => some ⟨.escaped .unprintable, r.terminal⟩
  | .fault cause =>
    some (if cause.ofMachine then report a r.terminal cause.message
      else ⟨.escaped (.fault cause), r.terminal⟩)

/-- How the command gets the bytes of a file. -/
abbrev FileReader := Path → Except FileError (List UInt8)

/-- Load the program of a file, whose contents may be refused. -/
def loadFile (a : Arguments) (type : NumberType) (read : FileReader) (t : Terminal)
    (file : String) : Except Outcome Machine :=
  match read (Path.ofString file) with
  | .error .nullByte => .error ⟨.escaped .nullByte, t⟩
  | .error e => .error (report a t e.message)
  | .ok bytes =>
    match Program.textOfBytes file bytes with
    | .error e => .error (report a t e.message)
    | .ok source =>
      match Program.load (.ofType type) type source with
      | .error e => .error (report a t e.message)
      | .ok m => .ok m

/-- A command at work: the program that it runs, and the files after it. -/
structure Job where
  arguments : Arguments
  numberType : NumberType
  piped : Bool
  live : Live
  rest : List String
  deriving DecidableEq

/-- What the command does next: it goes on with a program, or it is over. -/
inductive Progress where
  | working (job : Job)
  | over (outcome : Outcome)
  deriving DecidableEq

/-- Begin to run a program, unless there is a cap without a count. -/
def beginProgram (job : Job) : Progress :=
  if job.arguments.maxSteps = some none then .over ⟨.escaped .uncounted, job.live.terminal⟩
  else .working job

/-- Begin the first of the files that are left. -/
def nextFile (a : Arguments) (type : NumberType) (read : FileReader) (t : Terminal) :
    List String → Progress
  | [] => .over ⟨.status 0, t⟩
  | file :: rest =>
    match loadFile a type read t file with
    | .error outcome => .over outcome
    | .ok m => beginProgram ⟨a, type, false, ⟨0, m, t⟩, rest⟩

/-- Begin the program that the input holds. -/
def pipedProgram (a : Arguments) (type : NumberType) (t : Terminal) : Progress :=
  match Program.ofStream (.ofType type) type "<stdin>" t.stdin with
  | .error e => .over (report a t e.message)
  | .ok m => beginProgram ⟨a, type, true, ⟨0, m, { t with stdin := ⟨[], none⟩ }⟩, []⟩

/-- One turn of the program, or the change to the next file. -/
def Job.next (read : FileReader) (job : Job) : Progress :=
  match turn (settings job.arguments job.piped) job.live with
  | .goes live => .working { job with live := live }
  | .ends r =>
    match conclude job.arguments r with
    | some outcome => .over outcome
    | none => nextFile job.arguments job.numberType read r.terminal job.rest

/-- The outcome of a command at work, if it is over within a number of turns. -/
def Job.finish? (read : FileReader) (job : Job) : Nat → Option Outcome
  | 0 => none
  | n + 1 =>
    match job.next read with
    | .over outcome => some outcome
    | .working job => finish? read job n

def authorText : String :=
  "https://github.com/tomboddaert/msc\nMSCode was created by:\n\n  Tom Boddaert\n" ++
    "    https://tomboddaert.com/\n"

/-- Answer the options that ask about the interpreter itself. -/
def introduce (a : Arguments) (t : Terminal) : Outcome :=
  let t := t.printLine "-- MSCode Interpreter --"
  let t := if a.version then t.printLine "MSCode version 0.3.0" else t
  let t := if a.version && a.author then t.printLine "" else t
  let t := if a.author then t.print authorText else t
  let others := a.suppress || a.forceStdin || !a.files.isEmpty
  ⟨.status 0,
    if others then t.warnLine "Other arguments provided with --version or --author! Ignoring."
    else t⟩

namespace Arguments

/-- The options ask about the interpreter itself, and nothing is run. -/
def introduces (a : Arguments) : Bool := a.version || a.author

/-- The program text comes from the input. -/
def fromInput (a : Arguments) : Bool := a.files.isEmpty || a.forceStdin

end Arguments

def begin (a : Arguments) (read : FileReader) (t : Terminal) : Progress :=
  if a.introduces then .over (introduce a t)
  else
    match a.numberType with
    | none => .over ⟨.escaped .untyped, t⟩
    | some type =>
      if a.fromInput then pipedProgram a type t else nextFile a type read t a.files

/-- The outcome of a command line that is not carried out. -/
def decline (t : Terminal) : Options.Stop → Outcome
  | .help => ⟨.status 0, t.print help⟩
  | .complaint message =>
    ⟨.status 2, { t with stderr := t.stderr ++ usage ++ "mscode: error: " ++ message ++ "\n" }⟩

def start (args : List String) (read : FileReader) (t : Terminal) : Progress :=
  match Arguments.parse args with
  | .error stop => .over (decline t stop)
  | .ok a => begin a read t

/-- The whole command, if it is over within a number of turns. -/
def command (args : List String) (read : FileReader) (stdin : Stream) (turns : Nat) :
    Option Outcome :=
  match start args read (.ofInput stdin) with
  | .over outcome => some outcome
  | .working job => job.finish? read turns

end Interpreter
end MatrixStack
