import LoxReader.Token.Scan

/-!
# The options of the command

Arguments are read from left to right, and the first one that cannot be taken is refused. The name
of a file is looked at later than where it stands: when the next flag is taken, or behind the last
argument. Whether two outputs were asked for is decided last of all.
-/

namespace LoxReader

namespace Command

/-- What is printed. -/
inductive Output where
  | bracketed
  | source
  | tokens
  deriving DecidableEq, Repr

structure Options where
  output : Output
  mode : Mode
  /-- The file to read instead of the standard input. -/
  file? : Option String
  deriving DecidableEq, Repr

/-- Why arguments are not taken. -/
inductive Refusal where
  | unknownArgument
  | argumentConflict
  | tooManyValues
  | invalidValue
  | help
  deriving DecidableEq, Repr

/-! ### Single arguments -/

/-- The options that stand for themselves, without a value. -/
inductive Flag where
  | tokens
  | source
  | lenient
  | help
  deriving DecidableEq, Repr

/-- The flag with a long name, in full and without its dashes. -/
def Flag.ofName? (name : Text) : Option Flag :=
  if name = "tokens".toList then some tokens
  else if name = "infix".toList then some source
  else if name = "lenient".toList then some lenient
  else if name = "help".toList then some help
  else none

/-- What the arguments so far have asked for. -/
structure Request where
  flags : List Flag
  file? : Option String
  deriving DecidableEq, Repr

namespace Request

/-- The name of a file is not empty. -/
def checkFile (r : Request) : Except Refusal Unit :=
  if r.file? = some "" then .error .invalidValue else .ok ()

/-- A flag may be given once, behind a proper name of a file; help is given at once. -/
def withFlag (r : Request) (flag : Flag) : Except Refusal Request :=
  match r.checkFile with
  | .error refusal => .error refusal
  | .ok () =>
    if flag = .help then .error .help
    else if flag ∈ r.flags then .error .argumentConflict
    else .ok { r with flags := flag :: r.flags }

/-- There is at most one file. -/
def withFile (r : Request) (name : String) : Except Refusal Request :=
  match r.file? with
  | some _ => .error .unknownArgument
  | none => .ok { r with file? := some name }

/-- Takes an argument that starts with two dashes. A flag takes no value. -/
def withLong (r : Request) (text : Text) : Except Refusal Request :=
  match Flag.ofName? (text.takeWhile (· ≠ '=')) with
  | none => .error .unknownArgument
  | some flag => if '=' ∈ text then .error .tooManyValues else r.withFlag flag

/-- Takes one argument. A single dash is the name of a file. -/
def withArgument (r : Request) (argument : String) : Except Refusal Request :=
  match argument.toList with
  | '-' :: '-' :: text => r.withLong text
  | '-' :: c :: _ => if c = 'h' then r.withFlag .help else .error .unknownArgument
  | _ => r.withFile argument

/-- Takes all arguments; behind two dashes alone they are names of files. -/
def withArguments (r : Request) : List String → Except Refusal Request
  | [] => .ok r
  | argument :: others =>
    if argument = "--" then others.foldlM withFile r
    else
      match r.withArgument argument with
      | .error refusal => .error refusal
      | .ok r => r.withArguments others

/-- The options asked for, unless two outputs are. -/
def options (r : Request) : Except Refusal Options :=
  match r.checkFile with
  | .error refusal => .error refusal
  | .ok () =>
    let mode := if Flag.lenient ∈ r.flags then .lenient else .strict
    if Flag.tokens ∈ r.flags then
      if Flag.source ∈ r.flags then .error .argumentConflict else .ok ⟨.tokens, mode, r.file?⟩
    else .ok ⟨if Flag.source ∈ r.flags then .source else .bracketed, mode, r.file?⟩

end Request

/-- The options that the arguments ask for. -/
def Options.ofArguments (arguments : List String) : Except Refusal Options :=
  match Request.withArguments ⟨[], none⟩ arguments with
  | .error refusal => .error refusal
  | .ok r => r.options

end Command

end LoxReader
