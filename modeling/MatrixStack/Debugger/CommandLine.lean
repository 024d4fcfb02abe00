/-
The debugger as a command: its arguments, and the session that it starts with.
-/
import MatrixStack.Interpreter.Arguments
import MatrixStack.Session

namespace MatrixStack
namespace Debugger

structure Arguments where
  file : String
  autoRun : Bool
  /-- The type of numbers, unless its option came without a name. -/
  numberType : Option NumberType
  deriving DecidableEq

namespace Arguments

inductive Key where
  | autoRun | numberType
  deriving DecidableEq

def grammar : Options.Grammar Key where
  options := [
    ⟨["-h", "--help"], none, false⟩,
    ⟨["--run"], some .autoRun, false⟩,
    ⟨["-t", "--type"], some .numberType, true⟩]
  operands := .one "file"

def apply (a : Arguments) (key : Key) (value : Option String) : Except String Arguments :=
  match key with
  | .autoRun => .ok { a with autoRun := true }
  | .numberType => (value.mapM Options.chooseType).map fun t => { a with numberType := t }

def parse (args : List String) : Except Options.Stop Arguments := do
  let (a, files) ← Options.Grammar.parse apply grammar ⟨"", false, some .standard⟩ args
  return { a with file := files.headD "" }

end Arguments

def usage : String :=
  "usage: python -m mscode.debugger [-h] [--run]\n" ++
  "                                 [-t \x7bi16,i32,i64,i8,int,u16,u32,u64,u8\x7d]\n" ++
  "                                 file\n"

def help : String :=
  usage ++
  "\nMSCode TUI debugger\n" ++
  "\npositional arguments:\n" ++
  "  file                  Path to the program file\n" ++
  "\noptions:\n" ++
  "  -h, --help            show this help message and exit\n" ++
  "  --run                 Run to completion immediately (auto-run mode)\n" ++
  "  -t \x7bi16,i32,i64,i8,int,u16,u32,u64,u8\x7d, --type " ++
  "\x7bi16,i32,i64,i8,int,u16,u32,u64,u8\x7d\n" ++
  "                        Register and stack value type (default: i32)\n"

/-- How the command ends: it starts on a session, exits with a status and its output, has no type
of numbers, or meets a file error that it does not report. -/
inductive Launch where
  | started (session : Session) (autoRun : Bool)
  | exit (code : Nat) (stdout stderr : String)
  | untyped
  | escaped (cause : FileError)

def failWith (message : String) : Launch := .exit 1 "" ("Error: " ++ message ++ "\n")

/-- Start on the program of a file, which must be there. -/
def launch (a : Arguments) (type : NumberType) (tree : FileTree) : Launch :=
  let path := Path.ofString a.file
  match tree.lookup path with
  | .error (.nameTooLong path) => .escaped (.nameTooLong path)
  | .error _ => failWith ("File not found: " ++ path.text)
  | .ok _ =>
    match (Session.start type).loadFile tree a.file with
    | .error (.file cause) => .escaped cause
    | .error (.load cause) => failWith cause.message
    | .ok session => .started session a.autoRun

def command (args : List String) (tree : FileTree) : Launch :=
  match Arguments.parse args with
  | .error .help => .exit 0 help ""
  | .error (.complaint message) =>
    .exit 2 "" (usage ++ "python -m mscode.debugger: error: " ++ message ++ "\n")
  | .ok a =>
    match a.numberType with
    | none => .untyped
    | some type => launch a type tree

end Debugger
end MatrixStack
