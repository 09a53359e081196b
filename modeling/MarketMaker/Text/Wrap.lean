import MarketMaker.Text.Units

/-!
# Wrapping

A text is broken between words into lines that are no wider than asked for, each as full as it can
be. A word that is wider than a line has a line to itself.
-/

namespace MarketMaker.Text

/-- The lines that begin with `line` and go on with some words. -/
def fillLines (width : Nat) (line : String) : List String → List String
  | [] => [line]
  | word :: rest =>
    if units line + 1 + units word ≤ width then fillLines width (line ++ " " ++ word) rest
    else line :: fillLines width word rest

/-- The lines of a text of words with one space between them. -/
def wrap (width : Nat) (text : String) : List String :=
  match text.splitOn " " with
  | [] => []
  | word :: rest => fillLines width word rest

end MarketMaker.Text
