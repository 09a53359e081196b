import MarketMaker.Command.Catalogue
import MarketMaker.Text.Wrap
import MarketMaker.Value.Json

/-!
# Help

The help of the program and of each command: how it is used, what it is for, and two-column lists of
its switches and commands, wrapped at eighty columns.
-/

namespace MarketMaker.Command.Help

/-- The width of a line, with the column that always stays free. -/
def width : Nat := 80

/-- A line of a list: what is explained, and its explanation. -/
structure Entry where
  /-- What is explained. -/
  term : String
  /-- The explanation. -/
  description : String

/-- The explanation of a switch, with its default. -/
def describe (s : Switch) : String :=
  s.description ++ match s.default with
    | some value => " (default: " ++ Json.quote value ++ ")"
    | none => ""

/-- The entry of a switch. -/
def ofSwitch (s : Switch) : Entry := ⟨s.term, describe s⟩

/-- The entry of a command. -/
def ofSubcommand (c : Subcommand) : Entry := ⟨c.name ++ " [options]", c.description⟩

/-- The width of the terms of some entries. -/
def termWidth (entries : List Entry) : Nat := (entries.map fun e => Text.units e.term).foldl max 0

/-- Spaces. -/
def spaces (n : Nat) : String := String.ofList (List.replicate n ' ')

/-- The lines of an entry, when terms have a given width. -/
def entryLines (terms : Nat) (e : Entry) : List String :=
  let indent := terms + 2
  match Text.wrap (width - 2 - indent - 1) e.description with
  | [] => ["  " ++ e.term]
  | first :: rest =>
    ("  " ++ Text.padEnd e.term indent ++ first) :: rest.map fun line =>
      "  " ++ spaces indent ++ line

/-- The lines of a list with a heading and an empty line after it. -/
def listLines (heading : String) (terms : Nat) (entries : List Entry) : List String :=
  heading :: entries.flatMap (entryLines terms) ++ [""]

/-- The lines about usage and purpose. -/
def headLines (usage description : String) : List String :=
  ["Usage: " ++ usage, ""] ++ Text.wrap (width - 1) description ++ [""]

/-- The help of the program. -/
def program : String :=
  let switches := [versionSwitch, helpSwitch].map ofSwitch
  let commands := subcommands.map ofSubcommand ++ [⟨"help [command]", helpSwitch.description⟩]
  let terms := termWidth (switches ++ commands)
  String.intercalate "\n"
    (headLines (programName ++ " [options] [command]") programDescription
      ++ listLines "Options:" terms switches ++ listLines "Commands:" terms commands)

/-- The help of a command. -/
def command (c : Subcommand) : String :=
  let switches := (c.switches ++ [helpSwitch]).map ofSwitch
  String.intercalate "\n"
    (headLines (programName ++ " " ++ c.name ++ " [options]") c.description
      ++ listLines "Options:" (termWidth switches) switches)
    ++ c.notes ++ "\n"

end MarketMaker.Command.Help
