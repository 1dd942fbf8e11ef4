/-!
# Arguments

The arguments of a command, sorted into options and operands. An option has a long name, written
after two dashes, and perhaps a letter, written after one; letters can be joined. The value of an
option follows it, as the next argument or in the same one. Two dashes alone end the options.
-/

namespace DesignTokens.Cli

/-- What is wrong with the arguments of a command. -/
inductive UsageProblem where
  | unknownOption (name : String)
  | missingValue (option : String)
  | unexpectedValue (option : String)
  | missingCommand
  | unknownCommand (name : String)
  | missingOperand (name : String)
  | extraOperand (text : String)
  | invalidChoice (option text : String)
deriving DecidableEq, Repr

/-- The wording of a problem. -/
def UsageProblem.message : UsageProblem → String
  | unknownOption name => s!"No such option: {name}"
  | missingValue option => s!"Option '--{option}' requires an argument"
  | unexpectedValue option => s!"Option '--{option}' does not take a value"
  | missingCommand => "Missing command"
  | unknownCommand name => s!"No such command '{name}'"
  | missingOperand name => s!"Missing argument '{name}'"
  | extraOperand text => s!"Got unexpected extra argument ({text})"
  | invalidChoice option text => s!"Invalid value for '--{option}': '{text}'"

/-- An option that a command knows. -/
structure OptionForm where
  name : String
  letter : Option Char := none
  takesValue : Bool := true
deriving DecidableEq, Repr

/-- Arguments that have been sorted. An option without a value has an empty one. -/
structure Arguments where
  options : List (String × String) := []
  operands : List String := []
deriving DecidableEq, Repr

namespace Arguments

/-- Whether an option is present. -/
def has (a : Arguments) (name : String) : Bool :=
  a.options.any (·.1 == name)

/-- All values of an option, in order. -/
def all (a : Arguments) (name : String) : List String :=
  (a.options.filter (·.1 == name)).map (·.2)

/-- The last value of an option. -/
def last? (a : Arguments) (name : String) : Option String :=
  (a.all name).getLast?

/-- The arguments with options in front. -/
def withOptions (options : List (String × String)) (a : Arguments) : Arguments :=
  { a with options := options ++ a.options }

/-- The arguments with an operand in front. -/
def withOperand (operand : String) (a : Arguments) : Arguments :=
  { a with operands := operand :: a.operands }

end Arguments

/-- Options that have been read, and the name of the last one if its value is still to come. -/
abbrev ReadOptions := List (String × String) × Option String

/-- Reads the letters that follow a dash. What follows a letter whose option takes a value is that
value. -/
def readLetters (forms : List OptionForm) : List Char → Except UsageProblem ReadOptions
  | [] => .ok ([], none)
  | c :: rest =>
    match forms.find? (·.letter == some c) with
    | none => .error (.unknownOption (String.ofList ['-', c]))
    | some form =>
      if form.takesValue then
        if rest.isEmpty then .ok ([], some form.name)
        else .ok ([(form.name, String.ofList rest)], none)
      else (readLetters forms rest).map fun (options, open_) => ((form.name, "") :: options, open_)

/-- Reads the name that follows two dashes, perhaps with an equals sign and the value. -/
def readName (forms : List OptionForm) (cs : List Char) : Except UsageProblem ReadOptions :=
  let name := String.ofList (cs.takeWhile (· != '='))
  let value := cs.dropWhile (· != '=')
  match forms.find? (·.name == name), value with
  | none, _ => .error (.unknownOption ("--" ++ name))
  | some form, [] => if form.takesValue then .ok ([], some name) else .ok ([(name, "")], none)
  | some form, _ :: value =>
    if form.takesValue then .ok ([(name, String.ofList value)], none)
    else .error (.unexpectedValue name)

/-- Reads an argument that begins with a dash. -/
def readOption (forms : List OptionForm) (cs : List Char) : Except UsageProblem ReadOptions :=
  match cs with
  | '-' :: '-' :: name => readName forms name
  | _ => readLetters forms (cs.drop 1)

/-- An argument that is read as an option. -/
def isOption (arg : String) : Bool :=
  match arg.toList with
  | '-' :: _ :: _ => true
  | _ => false

/-- Sorts arguments. Options may stand between operands if `mixed` is set; else all that follows the
first operand is one too. -/
def Arguments.sort (forms : List OptionForm) (mixed : Bool) :
    List String → Except UsageProblem Arguments
  | [] => .ok {}
  | arg :: rest =>
    if arg = "--" then .ok { operands := rest }
    else if isOption arg then do
      match ← readOption forms arg.toList with
      | (options, none) => return (← sort forms mixed rest).withOptions options
      | (options, some name) =>
        match rest with
        | value :: further =>
          return (← sort forms mixed further).withOptions (options ++ [(name, value)])
        | [] => .error (.missingValue name)
    else if mixed then do return (← sort forms mixed rest).withOperand arg
    else .ok { operands := arg :: rest }

end DesignTokens.Cli
