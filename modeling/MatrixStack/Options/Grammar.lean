/-
Command lines of options and operands.

An argument that starts with a dash is an option: by its name, by a long name cut short where only
one begins so, or by a short name with its value or with further short options behind it.  A
single dash, a negative number, and text with a space in it are operands.  Two dashes end the
options; as the value behind a name they leave the option without one.  Operands stand in one
group; arguments that no option and no operand takes are refused
at the end, and so is the lack of an operand that must be given.
-/
import MatrixStack.Text.Numeral
import MatrixStack.Text.Quoted

namespace MatrixStack
namespace Options

/-- An option with all its names; without a key it asks for help. -/
structure Spec (κ : Type) where
  names : List String
  key : Option κ
  takesValue : Bool

/-- The name of an option in complaints. -/
def Spec.title {κ : Type} (o : Spec κ) : String := "/".intercalate o.names

/-- The operands that a command takes: any number, or exactly one. -/
inductive Operands where
  | many
  | one (name : String)
  deriving DecidableEq

structure Grammar (κ : Type) where
  options : List (Spec κ)
  operands : Operands

/-- Why the arguments are not carried out. -/
inductive Stop where
  | help
  | complaint (message : String)
  deriving DecidableEq

def complain {κ : Type} (o : Spec κ) (what : String) : Stop :=
  .complaint ("argument " ++ o.title ++ ": " ++ what)

def ignoredValue {κ : Type} (o : Spec κ) (value : List Char) : Stop :=
  complain o ("ignored explicit argument " ++ Text.quote (String.ofList value))

inductive Token (κ : Type) where
  | plain (arg : String)
  | dashes
  | option (o : Spec κ) (name : String) (value : Option (List Char))
  | unknown (arg : String)

/-- Digits behind a minus, with or without a point in them; a newline at the end is overlooked. -/
def isNegativeNumber (cs : List Char) : Bool :=
  let isDigit (c : Char) : Bool := (Text.decimalDigit? c).isSome
  let numeral (cs : List Char) : Bool :=
    match cs with
    | '-' :: cs =>
      match cs.dropWhile isDigit with
      | [] => !cs.isEmpty
      | '.' :: cs => !cs.isEmpty && cs.all isDigit
      | _ => false
    | _ => false
  numeral cs || (cs.getLast? = some '\n' && numeral cs.dropLast)

namespace Grammar

variable {κ : Type}

/-- Every name with its option, in the order in which they were declared. -/
def named (g : Grammar κ) : List (String × Spec κ) :=
  g.options.flatMap fun o => o.names.map (·, o)

def find? (g : Grammar κ) (name : String) : Option (Spec κ) :=
  (g.named.find? fun entry => entry.1 = name).map (·.2)

/-- The part before the first equals sign, and the part after it. -/
def splitValue (cs : List Char) : List Char × Option (List Char) :=
  match cs.dropWhile (· ≠ '=') with
  | [] => (cs, none)
  | _ :: value => (cs.takeWhile (· ≠ '='), some value)

/-- The options that an argument can stand for when it is not the whole name of one. -/
def candidates (g : Grammar κ) (cs : List Char) :
    List (Spec κ × String × Option (List Char)) :=
  match cs with
  | '-' :: '-' :: _ =>
    let (start, value) := splitValue cs
    (g.named.filter fun entry => start.isPrefixOf entry.1.toList).map fun entry =>
      (entry.2, entry.1, value)
  | '-' :: c :: value =>
    (g.named.filter fun entry => entry.1.toList = ['-', c]).map fun entry =>
      (entry.2, entry.1, some value)
  | _ => []

def ambiguous (arg : String) (names : List String) : Stop :=
  .complaint ("ambiguous option: " ++ arg ++ " could match " ++ ", ".intercalate names)

def classify (g : Grammar κ) (arg : String) : Except Stop (Token κ) :=
  let cs := arg.toList
  if cs.head? ≠ some '-' then .ok (.plain arg)
  else
    match g.find? arg with
    | some o => .ok (.option o arg none)
    | none =>
      if cs.length = 1 then .ok (.plain arg)
      else
        let (start, value) := splitValue cs
        match value, g.find? (String.ofList start) with
        | some value, some o => .ok (.option o (String.ofList start) (some value))
        | _, _ =>
          match g.candidates cs with
          | [(o, name, value)] => .ok (.option o name value)
          | [] =>
            if isNegativeNumber cs || cs.contains ' ' then .ok (.plain arg)
            else .ok (.unknown arg)
          | several => .error (ambiguous arg (several.map (·.2.1)))

/-- Classify every argument; behind two dashes all are plain. -/
def tokens (g : Grammar κ) : List String → Except Stop (List (Token κ))
  | [] => .ok []
  | arg :: rest =>
    if arg = "--" then .ok (.dashes :: rest.map .plain)
    else do return (← g.classify arg) :: (← g.tokens rest)

/-- The options of one argument: those that are complete, and the last one if it still needs the
next argument as its value. -/
structure Bundle (κ : Type) where
  complete : List (Spec κ × Option String)
  pending : Option (Spec κ)

/-- An option without a value behind its name. -/
def bare (o : Spec κ) : Bundle κ := if o.takesValue then ⟨[], some o⟩ else ⟨[(o, none)], none⟩

def Bundle.cons (o : Spec κ) (b : Bundle κ) : Bundle κ := ⟨(o, none) :: b.complete, b.pending⟩

def isShort (name : String) : Bool :=
  match name.toList with
  | _ :: c :: _ => c ≠ '-'
  | _ => false

/-- The value behind a name, which two dashes are not. -/
def valueBehind (cs : List Char) : Option String :=
  if cs = ['-', '-'] then none else some (String.ofList cs)

/-- The options of a name with a value behind it: the value is that of the option, or holds more
short options. -/
def unbundle (g : Grammar κ) (o : Spec κ) (name : String) : List Char → Except Stop (Bundle κ)
  | [] => if o.takesValue then .ok ⟨[(o, some "")], none⟩ else .error (ignoredValue o [])
  | c :: rest =>
    if o.takesValue then .ok ⟨[(o, valueBehind (c :: rest))], none⟩
    else if isShort name then
      let next := String.ofList ['-', c]
      match g.find? next with
      | none => .error (ignoredValue o (c :: rest))
      | some o' =>
        if rest.isEmpty then .ok (Bundle.cons o (bare o'))
        else (unbundle g o' next rest).map (Bundle.cons o)
    else .error (ignoredValue o (c :: rest))

def bundle (g : Grammar κ) (o : Spec κ) (name : String) : Option (List Char) →
    Except Stop (Bundle κ)
  | none => .ok (bare o)
  | some value => g.unbundle o name value

/-- The arguments carried out so far. -/
structure Progress (σ : Type) where
  settings : σ
  operands : Option (List String)
  /-- The last argument was one of the group of operands. -/
  grouping : Bool
  extras : List String

namespace Progress

variable {σ : Type}

def extra (p : Progress σ) (arg : String) : Progress σ :=
  { p with grouping := false, extras := p.extras ++ [arg] }

def joins (p : Progress σ) (kind : Operands) : Bool :=
  match kind with
  | .many => p.operands.isNone || p.grouping
  | .one _ => p.operands.isNone

def plain (p : Progress σ) (kind : Operands) (arg : String) : Progress σ :=
  if p.joins kind then
    { p with operands := some (p.operands.getD [] ++ [arg]), grouping := true }
  else p.extra arg

/-- Two dashes belong to the group of operands if they touch it. -/
def dashes (p : Progress σ) (kind : Operands) (operandFollows : Bool) : Progress σ :=
  match kind with
  | .many =>
    if p.joins kind then { p with operands := some (p.operands.getD []), grouping := true }
    else p.extra "--"
  | .one _ =>
    if p.grouping || (p.operands.isNone && operandFollows) then { p with grouping := false }
    else p.extra "--"

end Progress

section Parse

variable {σ : Type} (apply : σ → κ → Option String → Except String σ)

/-- Carry out one complete option. -/
def take (settings : σ) (entry : Spec κ × Option String) : Except Stop σ :=
  match entry.1.key with
  | none => .error .help
  | some key => (apply settings key entry.2).mapError (complain entry.1)

def takeOptions (p : Progress σ) (entries : List (Spec κ × Option String)) :
    Except Stop (Progress σ) := do
  return { p with settings := ← entries.foldlM (take apply) p.settings, grouping := false }

def run (g : Grammar κ) (p : Progress σ) : List (Token κ) → Except Stop (Progress σ)
  | [] => .ok p
  | .plain arg :: rest => run g (p.plain g.operands arg) rest
  | .dashes :: rest =>
    run g (p.dashes g.operands (match rest with | .plain _ :: _ => true | _ => false)) rest
  | .unknown arg :: rest => run g (p.extra arg) rest
  | .option o name value :: rest =>
    match g.bundle o name value with
    | .error stop => .error stop
    | .ok b =>
      match b.pending with
      | none =>
        match takeOptions apply p b.complete with
        | .error stop => .error stop
        | .ok p => run g p rest
      | some last =>
        match rest with
        | .plain arg :: rest =>
          match takeOptions apply p (b.complete ++ [(last, some arg)]) with
          | .error stop => .error stop
          | .ok p => run g p rest
        | _ => .error (complain last "expected one argument")

/-- The settings and operands of a command line. -/
def parse (g : Grammar κ) (start : σ) (args : List String) : Except Stop (σ × List String) := do
  let p ← run apply g ⟨start, none, false, []⟩ (← g.tokens args)
  match g.operands, p.operands with
  | .one name, none =>
    .error (.complaint ("the following arguments are required: " ++ name))
  | _, operands =>
    if p.extras.isEmpty then return (p.settings, operands.getD [])
    else .error (.complaint ("unrecognized arguments: " ++ " ".intercalate p.extras))

end Parse
end Grammar
end Options
end MatrixStack
