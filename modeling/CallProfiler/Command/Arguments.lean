/-!
# Command-line arguments

Arguments are options, which begin with a dash, and operands. A long option may have its value
after an equals sign, a short one in the same argument; otherwise the value is the next
argument. Short options can be bundled, and two dashes end the options. Arguments are taken in
order, so of several mistakes the first decides. An argument of its own, be it a value or an
operand, is only taken when the next argument is understood, or at the end.
-/

namespace CallProfiler.Command

/-- An option that a command knows. -/
structure OptionSpec where
  long : String
  short : Option Char
  takesValue : Bool
deriving DecidableEq, Repr

/-- An argument that was understood. -/
inductive Argument where
  | option (long : String) (value : Option String)
  | operand (text : String)
deriving DecidableEq, Repr

/-- How the reading of arguments ended. -/
inductive ArgumentsEnd where
  | complete
  /-- An argument that has no meaning here. -/
  | unexpected
  /-- An option without its value. -/
  | missingValue
deriving DecidableEq, Repr

/-- The arguments understood, in order, and how their reading ended. -/
structure Arguments where
  taken : List Argument
  ending : ArgumentsEnd
deriving DecidableEq, Repr

namespace Arguments

/-- Arguments before others. -/
def prepend (earlier : List Argument) (later : Arguments) : Arguments :=
  { later with taken := earlier ++ later.taken }

/-- Whether an argument is an option rather than a value. -/
def isOption (argument : String) : Bool :=
  argument.startsWith "-" && argument != "-"

/-- What one argument says about options: those that are complete, and one that still wants its
value. -/
structure Bundle where
  complete : List Argument
  wanting : Option String
  known : Bool

/-- The options of a bundle of short options. -/
def readBundle (specs : List OptionSpec) : List Char → Bundle
  | [] => ⟨[], none, true⟩
  | letter :: rest =>
    match specs.find? (·.short == some letter) with
    | none => ⟨[], none, false⟩
    | some spec =>
      if spec.takesValue then
        match rest with
        | [] => ⟨[], some spec.long, true⟩
        | '=' :: value => ⟨[.option spec.long (some (String.ofList value))], none, true⟩
        | value => ⟨[.option spec.long (some (String.ofList value))], none, true⟩
      else
        let later := readBundle specs rest
        { later with complete := .option spec.long none :: later.complete }

/-- The option of an argument that begins with two dashes. -/
def readLong (specs : List OptionSpec) (text : List Char) : Bundle :=
  let name := String.ofList (text.takeWhile fun letter => letter != '=')
  let value := (text.dropWhile fun letter => letter != '=').tail?.map String.ofList
  match specs.find? (·.long == name), value with
  | none, _ => ⟨[], none, false⟩
  | some spec, none =>
    if spec.takesValue then ⟨[], some spec.long, true⟩
    else ⟨[.option spec.long none], none, true⟩
  | some spec, some value =>
    if spec.takesValue then ⟨[.option spec.long (some value)], none, true⟩
    else ⟨[], none, false⟩

/-- The options of an argument. -/
def readOption (specs : List OptionSpec) (argument : String) : Bundle :=
  match argument.toList with
  | '-' :: '-' :: text => readLong specs text
  | '-' :: text => readBundle specs text
  | _ => ⟨[], none, false⟩

/-- Read arguments that are all operands, of which there may be so many. The pending argument
waits for the next one. -/
def readOperands (pending : Option Argument) : Nat → List String → Arguments
  | _, [] => ⟨pending.toList, .complete⟩
  | 0, _ :: _ => ⟨[], .unexpected⟩
  | operands + 1, text :: rest =>
    (readOperands (some (.operand text)) operands rest).prepend pending.toList

/-- Read arguments with these options and up to so many operands. The pending argument waits
for the next one. -/
def readAfter (specs : List OptionSpec) (pending : Option Argument) (operands : Nat) :
    List String → Arguments
  | [] => ⟨pending.toList, .complete⟩
  | argument :: rest =>
    if argument = "--" then readOperands pending operands rest
    else if isOption argument then
      let bundle := readOption specs argument
      match bundle.known, bundle.wanting, rest with
      | false, _, _ =>
        ⟨if bundle.complete.isEmpty then [] else pending.toList ++ bundle.complete, .unexpected⟩
      | true, none, rest =>
        (readAfter specs none operands rest).prepend (pending.toList ++ bundle.complete)
      | true, some long, value :: rest =>
        if isOption value then ⟨pending.toList ++ bundle.complete, .missingValue⟩
        else
          (readAfter specs (some (.option long (some value))) operands rest).prepend
            (pending.toList ++ bundle.complete)
      | true, some _, [] => ⟨pending.toList ++ bundle.complete, .missingValue⟩
    else match operands with
      | 0 => ⟨[], .unexpected⟩
      | operands + 1 =>
        (readAfter specs (some (.operand argument)) operands rest).prepend pending.toList

/-- Read arguments with these options and up to so many operands. -/
def read (specs : List OptionSpec) (operands : Nat) (arguments : List String) : Arguments :=
  readAfter specs none operands arguments

end Arguments

end CallProfiler.Command
