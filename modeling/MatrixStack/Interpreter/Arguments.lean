/-
The command line of the interpreter.
-/
import MatrixStack.Number.Kind
import MatrixStack.Options.Grammar

namespace MatrixStack
namespace Options

/-- The number type of a name, or the complaint that lists the names. -/
def chooseType (name : String) : Except String NumberType :=
  match NumberType.ofName? name with
  | some t => .ok t
  | none =>
    .error ("invalid choice: " ++ Text.quote name ++ " (choose from " ++
      ", ".intercalate (NumberType.names.map Text.quote) ++ ")")

/-- The failure of a command whose type option came without a name. -/
def untypedMessage : String := "unhashable type: 'list'"

def readCount (text : String) : Except String Int :=
  match Numeral.read 10 text with
  | some n => .ok n
  | none => .error ("invalid int value: " ++ Text.quote text)

end Options

namespace Interpreter

structure Arguments where
  files : List String
  suppress : Bool
  forceStdin : Bool
  version : Bool
  author : Bool
  /-- The type of numbers, unless its option came without a name. -/
  numberType : Option NumberType
  /-- The step cap, if there is one, and its count unless the option came without one. -/
  maxSteps : Option (Option Int)
  deriving DecidableEq

namespace Arguments

/-- The arguments of an empty command line. -/
def standard : Arguments := ⟨[], false, false, false, false, some .standard, none⟩

inductive Key where
  | suppress | forceStdin | version | author | numberType | maxSteps
  deriving DecidableEq

def grammar : Options.Grammar Key where
  options := [
    ⟨["-h", "--help"], none, false⟩,
    ⟨["-s", "--suppress"], some .suppress, false⟩,
    ⟨["-S", "--stdin"], some .forceStdin, false⟩,
    ⟨["-v", "--version"], some .version, false⟩,
    ⟨["-a", "--author"], some .author, false⟩,
    ⟨["-t", "--type"], some .numberType, true⟩,
    ⟨["--max-steps"], some .maxSteps, true⟩]
  operands := .many

def apply (a : Arguments) (key : Key) (value : Option String) : Except String Arguments :=
  match key with
  | .suppress => .ok { a with suppress := true }
  | .forceStdin => .ok { a with forceStdin := true }
  | .version => .ok { a with version := true }
  | .author => .ok { a with author := true }
  | .numberType => (value.mapM Options.chooseType).map fun t => { a with numberType := t }
  | .maxSteps => (value.mapM Options.readCount).map fun n => { a with maxSteps := some n }

def parse (args : List String) : Except Options.Stop Arguments := do
  let (a, files) ← Options.Grammar.parse apply grammar standard args
  return { a with files := files }

end Arguments

def usage : String :=
  "usage: mscode [-h] [-s] [-S] [-v] [-a]\n" ++
  "              [-t \x7bi16,i32,i64,i8,int,u16,u32,u64,u8\x7d] [--max-steps MAX_STEPS]\n" ++
  "              [files ...]\n"

def help : String :=
  usage ++
  "\nMSCode interpreter: runs 2D stack-based programs.\n" ++
  "\npositional arguments:\n" ++
  "  files                 Program files to run in order\n" ++
  "\noptions:\n" ++
  "  -h, --help            show this help message and exit\n" ++
  "  -s, --suppress        Suppress errors and input prompts\n" ++
  "  -S, --stdin           Force reading the program from stdin\n" ++
  "  -v, --version         Print the version\n" ++
  "  -a, --author          Information about the author\n" ++
  "  -t \x7bi16,i32,i64,i8,int,u16,u32,u64,u8\x7d, --type " ++
  "\x7bi16,i32,i64,i8,int,u16,u32,u64,u8\x7d\n" ++
  "                        Register and stack value type (default: i32)\n" ++
  "  --max-steps MAX_STEPS\n" ++
  "                        Stop each program after this many steps\n"

end Interpreter
end MatrixStack
