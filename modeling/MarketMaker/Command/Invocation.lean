import MarketMaker.Command.Catalogue
import MarketMaker.Text.Similar

/-!
# What an invocation asks for

`Invocation.read` finds out what the words on the command line ask for. The first operand names a
command, and all that the program does not know itself is left to that command. Of several things
that are wrong, the first one in this order counts: a value that is missing, a required switch that
is not given, an unknown switch. A request for help comes before the last two.
-/

namespace MarketMaker.Command

/-- What the words on the command line ask for. -/
inductive Invocation where
  /-- The version was asked for. -/
  | version
  /-- The help of the program was asked for. -/
  | help
  /-- The help of a command was asked for. -/
  | commandHelp (c : Subcommand)
  /-- Nothing was asked for, or help on something that there is none on. -/
  | nothing
  /-- Help was asked for by a command. -/
  | helpCommand
  /-- A switch of the program is unknown. -/
  | unknownSwitch (message : String)
  /-- There is no such command. -/
  | unknownCommand (message : String)
  /-- A command was given something that it does not take. -/
  | rejected (message : String)
  /-- A command is to be performed. -/
  | perform (c : Subcommand) (arguments : Arguments)

namespace Invocation

/-- A question for what may have been meant. -/
def suggestion : List String → String
  | [] => ""
  | [one] => "\n(Did you mean " ++ one ++ "?)"
  | several => "\n(Did you mean one of " ++ String.intercalate ", " several ++ "?)"

/-- The switches of the program itself. -/
def programSwitches : List Switch := [versionSwitch]

/-- What a word may have been meant for. When it begins with two dashes, the first two characters of
the word and of every candidate do not count, and two dashes stand for them in the answer. -/
def meant (word : String) (candidates : List String) : List String :=
  match word.toList with
  | '-' :: '-' :: rest =>
    (Text.nearest (String.ofList rest)
      (candidates.map fun c => String.ofList (c.toList.drop 2))).map ("--" ++ ·)
  | _ => Text.nearest word candidates

/-- The words about an unknown switch, with what may have been meant by a name after two dashes. -/
def unknownSwitchMessage (word : String) (known : List Switch) : String :=
  let candidates := match word.toList with
    | '-' :: '-' :: _ => known.map (·.long)
    | _ => []
  "error: unknown option '" ++ word ++ "'" ++ suggestion (meant word candidates)

/-- The words about an unknown command, with what may have been meant. -/
def unknownCommandMessage (word : String) : String :=
  "error: unknown command '" ++ word ++ "'"
    ++ suggestion (meant word (subcommands.map (·.name) ++ ["help"]))

/-- Whether help is asked for among some words. -/
def asksForHelp (words : List String) : Bool := words.any fun w => helpSwitch.isNamed w.toList

/-- What an invocation of a command asks for. -/
def readCommand (c : Subcommand) (words : List String) : Invocation :=
  match Arguments.sort c.switches false words with
  | .error (.valueMissing s) => .rejected ("error: option '" ++ s.term ++ "' argument missing")
  | .error (.given _) => .commandHelp c
  | .ok a =>
    if asksForHelp a.rest then .commandHelp c
    else
      match c.switches.find? fun s => s.required && (a.value? s).isNone with
      | some s => .rejected ("error: required option '" ++ s.term ++ "' not specified")
      | none =>
        match a.rest with
        | [] => .perform c a
        | word :: _ =>
          .rejected (unknownSwitchMessage word
            (c.switches ++ [helpSwitch] ++ programSwitches ++ [helpSwitch]))

/-- What the words on the command line ask for. -/
def read (words : List String) : Invocation :=
  match Arguments.sort programSwitches false words with
  | .error _ => .version
  | .ok a =>
    match a.operands with
    | [] =>
      match a.rest with
      | [] => .nothing
      | word :: _ =>
        if asksForHelp a.rest then .help
        else .unknownSwitch (unknownSwitchMessage word (programSwitches ++ [helpSwitch]))
    | name :: _ =>
      match subcommand? name with
      | some c => readCommand c a.rest
      | none =>
        if name == "help" then
          match a.operands.tail with
          | [] => .helpCommand
          | topic :: _ =>
            match subcommand? topic with
            | some c => .commandHelp c
            | none => if topic.isEmpty then .helpCommand else .nothing
        else if asksForHelp a.rest then .help
        else .unknownCommand (unknownCommandMessage name)

end Invocation

end MarketMaker.Command
