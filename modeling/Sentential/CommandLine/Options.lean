import Sentential.Text.Digit

/-!
# Options

Arguments as options and one operand. An option is a flag or takes one value, which follows it or
stands after an equals sign. A long name may be shortened as long as it stays unambiguous, and flags
of one letter may be joined. An argument that looks like an option but is a negative number, or
holds a blank and fits no option, is an operand, and so is everything after a double dash. A double
dash after an equals sign is dropped, so that the option is given nothing.

## Main definitions

* `OptionSpec` — an option of a command
* `Argument`, `Argument.classify` — what the arguments are under some options
* `Given` — what an option is given
* `Arguments`, `Arguments.read` — the operand, the flags and the values of some arguments
-/

namespace Sentential.CommandLine

/-- What an option takes. -/
inductive OptionKind where
  /-- Nothing: the option asks for help, and nothing else is done. -/
  | help
  /-- Nothing. -/
  | flag
  /-- Any value. -/
  | value
  /-- One of the given values. -/
  | choice (allowed : List String)
deriving DecidableEq, Repr

/-- An option of a command. -/
structure OptionSpec where
  /-- The name, with its two dashes. -/
  name : String
  /-- The letter that stands for the option after a single dash; only flags have one. -/
  letter : Option Char := none
  /-- What the option takes. -/
  kind : OptionKind
deriving DecidableEq, Repr

/-- Why arguments are not carried out. -/
inductive Refusal where
  /-- They do not fit the command. -/
  | usage
  /-- They ask for help. -/
  | help
deriving DecidableEq, Repr

/-- An argument. -/
inductive Argument where
  /-- The operand of the command, or one too many. -/
  | operand (text : String)
  /-- The double dash that ends the options. -/
  | separator
  /-- An option by its name, with the value after an equals sign. -/
  | named (option : OptionSpec) (attached : Option String)
  /-- Options by their letters. -/
  | letters (letters : List Char)
  /-- What looks like an option and is none. -/
  | unknown
deriving DecidableEq, Repr

namespace Argument

/-- The parts of a text before and after its first equals sign. -/
def splitEquals : List Char → List Char × Option (List Char)
  | [] => ([], none)
  | '=' :: rest => ([], some rest)
  | c :: rest =>
    let (before, after) := splitEquals rest
    (c :: before, after)

/-- A text without the line feed at its end, if there is one. -/
def dropLineFeed (cs : List Char) : List Char :=
  if cs.getLast? = some '\n' then cs.dropLast else cs

/-- Whether a text that follows a dash makes it a negative number. A line feed may end it. -/
def isUnsignedNumber (cs : List Char) : Bool :=
  let cs := dropLineFeed cs
  let isDigit := fun c => (Text.digitValue? c).isSome
  let rest := cs.dropWhile isDigit
  match rest with
  | [] => !cs.isEmpty
  | '.' :: fraction => !fraction.isEmpty && fraction.all isDigit
  | _ => false

/-- An argument that begins with a dash and fits no option. -/
def withoutOption (text : String) : Argument :=
  if isUnsignedNumber (text.toList.drop 1) || text.contains ' ' then operand text else unknown

/-- What an argument is under some options, before any double dash. -/
def classify (specs : List OptionSpec) (text : String) : Except Refusal Argument :=
  match text.toList with
  | '-' :: '-' :: _ =>
    match specs.find? (fun o => o.name == text) with
    | some o => .ok (.named o none)
    | none =>
      let (before, after) := splitEquals text.toList
      let attached := after.map String.ofList
      match after.bind (fun _ => specs.find? (fun o => o.name == String.ofList before)) with
      | some o => .ok (.named o attached)
      | none =>
        -- No full name fits: a shortened one must leave no choice.
        match specs.filter (fun o => before.isPrefixOf o.name.toList) with
        | [] => .ok (withoutOption text)
        | [o] => .ok (.named o attached)
        | _ => .error .usage
  | '-' :: c :: rest =>
    if specs.any (fun o => o.letter == some c) then
      match rest with
      -- An equals sign is no letter of any flag, so what follows it is refused later.
      | ['='] => .ok (.letters ['='])
      | '=' :: others => .ok (.letters (c :: others))
      | _ => .ok (.letters (c :: rest))
    else .ok (withoutOption text)
  | _ => .ok (.operand text)

/-- What all arguments are. After a double dash they are operands. -/
def classifyAll (specs : List OptionSpec) : List String → Except Refusal (List Argument)
  | [] => .ok []
  | text :: rest =>
    if text = "--" then .ok (.separator :: rest.map .operand)
    else do
      let a ← classify specs text
      let others ← classifyAll specs rest
      return a :: others

end Argument

/-- What an option is given. -/
inductive Given where
  /-- A value. -/
  | text (value : String)
  /-- Nothing, though it takes a value. -/
  | nothing
deriving DecidableEq, Repr

/-- The value that an option is given, if it is given one. -/
def Given.text? : Given → Option String
  | text value => some value
  | nothing => none

/-- What the arguments of a command say. -/
structure Arguments where
  /-- The operand. -/
  operand : Option String := none
  /-- The names of the flags that are set. -/
  flags : List String := []
  /-- The names of the options with what they are given, latest first. -/
  values : List (String × Given) := []
  /-- Whether there is an argument too many. -/
  excess : Bool := false
deriving DecidableEq, Repr

namespace Arguments

/-- Whether a flag is set. -/
def has (a : Arguments) (name : String) : Bool := a.flags.contains name

/-- What an option is given, if it is there. -/
def given? (a : Arguments) (name : String) : Option Given := a.values.lookup name

/-- The value of an option. -/
def value? (a : Arguments) (name : String) : Option String := (a.given? name).bind Given.text?

/-- Sets a flag, or stops for help. -/
def setFlag (a : Arguments) (o : OptionSpec) : Except Refusal Arguments :=
  if o.kind = .help then .error .help else .ok { a with flags := o.name :: a.flags }

/-- Gives a value to an option. -/
def setValue (a : Arguments) (o : OptionSpec) (text : String) : Except Refusal Arguments :=
  match o.kind with
  | .choice allowed =>
    if allowed.contains text then .ok { a with values := (o.name, .text text) :: a.values }
    else .error .usage
  | _ => .ok { a with values := (o.name, .text text) :: a.values }

/-- Gives an option what stands after its equals sign. -/
def setAttached (a : Arguments) (o : OptionSpec) (text : String) : Except Refusal Arguments :=
  if text = "--" then .ok { a with values := (o.name, .nothing) :: a.values } else a.setValue o text

/-- Whether an option takes a value. -/
def takesValue (o : OptionSpec) : Bool :=
  match o.kind with
  | .help | .flag => false
  | .value | .choice _ => true

/-- Reads the arguments in order. -/
def readFrom (specs : List OptionSpec) (a : Arguments) : List Argument → Except Refusal Arguments
  | [] => if a.excess || a.operand.isNone then .error .usage else .ok a
  -- A double dash right after an operand belongs to it.
  | .operand text :: .separator :: rest =>
    if a.operand.isNone then readFrom specs { a with operand := some text } rest
    else readFrom specs { a with excess := true } rest
  | .operand text :: rest =>
    if a.operand.isNone then readFrom specs { a with operand := some text } rest
    else readFrom specs { a with excess := true } rest
  | .separator :: rest =>
    -- A double dash with no operand left to introduce is an argument too many.
    if a.operand.isNone && !rest.isEmpty then readFrom specs a rest
    else readFrom specs { a with excess := true } rest
  | .unknown :: rest => readFrom specs { a with excess := true } rest
  | .letters cs :: rest =>
    match cs.mapM (fun c => specs.find? (fun o => o.letter == some c)) with
    | none => .error .usage
    -- All letters are known before any of them takes effect.
    | some os =>
      match os.foldlM setFlag a with
      | .error r => .error r
      | .ok a => readFrom specs a rest
  | .named o (some text) :: rest =>
    if takesValue o then
      match a.setAttached o text with
      | .error r => .error r
      | .ok a => readFrom specs a rest
    else .error .usage
  | .named o none :: rest =>
    if takesValue o then
      match rest with
      | .operand text :: rest =>
        match a.setValue o text with
        | .error r => .error r
        | .ok a => readFrom specs a rest
      | _ => .error .usage
    else
      match a.setFlag o with
      | .error r => .error r
      | .ok a => readFrom specs a rest

/-- The operand, the flags and the values of some arguments. -/
def read (specs : List OptionSpec) (texts : List String) : Except Refusal Arguments := do
  let arguments ← Argument.classifyAll specs texts
  readFrom specs {} arguments

end Arguments

end Sentential.CommandLine
