import MarketMaker.Terminal.Report
import MarketMaker.Text.Units
import MarketMaker.Value

/-!
# Tables on the terminal

A table has a column per name, as wide as its widest cell but at most twenty-four units. A cell that
is wider is cut and ends in three points; a header is never cut.
-/

namespace MarketMaker.Terminal

/-- The widest a column gets. -/
def maxColumnWidth : Nat := 24

variable {α : Type} [Scalar α] [NumberText α]

/-- The operations that every object has without being given them, each with the name that it goes
by. -/
def operations : List (String × String) :=
  ("constructor", "Object") ::
    ["__defineGetter__", "__defineSetter__", "__lookupGetter__", "__lookupSetter__",
      "hasOwnProperty", "isPrototypeOf", "propertyIsEnumerable", "toLocaleString", "toString",
      "valueOf"].map fun n => (n, n)

/-- The text that stands for an operation. -/
def operationText (name : String) : String := "function " ++ name ++ "() \x7b [native code] \x7d"

/-- What every object shows under a name without being given it: the object that it is made after,
or an operation. -/
def inherited (name : String) : Value α :=
  if name == "__proto__" then .object []
  else ((operations.lookup name).map fun n => Value.string (operationText n)).getD .undefined

/-- What a row shows under a name. An object without such a field shows what every object does. -/
def cell (row : Value α) (name : String) : Value α :=
  match row with
  | .object fields => (fields.lookup name).getD (inherited name)
  | row => row.member name

/-- The text of a cell; what is missing is empty. -/
def cellText (row : Value α) (name : String) : String :=
  let v := cell row name
  if v.isMissing then "" else v.text

/-- The width of a column. -/
def columnWidth (rows : List (Value α)) (name : String) : Nat :=
  min ((rows.map fun r => Text.units (cellText r name)).foldl max (Text.units name)) maxColumnWidth

/-- A text that fits a column. -/
def fit (text : String) (width : Nat) : String :=
  Text.padEnd (if width < Text.units text then Text.cut text (width - 3) ++ "..." else text) width

/-- The lines of a table with the given columns. -/
def tableLines (rows : List (Value α)) (columns : List String) : List String :=
  let widths := columns.map (columnWidth rows)
  let header := String.intercalate " │ " ((columns.zip widths).map fun (n, w) => Text.padEnd n w)
  let rule := String.intercalate "─┼─" (widths.map fun w => String.ofList (List.replicate w '─'))
  header :: rule :: rows.map fun r =>
    String.intercalate " │ " ((columns.zip widths).map fun (n, w) => fit (cellText r n) w)

/-- The columns of a table: those that are asked for, or the names of its first row. -/
def columnsOf (rows : List (Value α)) (asked : Option (List String)) : List String :=
  asked.getD ((rows.head?.getD .undefined).fields.map (·.1))

/-- Whether a table can be printed: no row that is looked at is missing, and every cell has a
text. -/
def isTable (rows : List (Value α)) (asked : Option (List String)) : Bool :=
  let columns := columnsOf rows asked
  (asked.isSome || !(rows.head?.any (·.isMissing))) &&
    (columns.isEmpty || rows.all fun r => !r.isMissing && columns.all fun n => (cell r n).hasText)

/-- Prints a table; its columns are those of its first row unless others are asked for. -/
def printTable (o : Output) (rows : List (Value α)) (asked : Option (List String) := none) :
    Output :=
  if rows.isEmpty then o.print (note "No data to display")
  else (tableLines rows (columnsOf rows asked)).foldl Output.print o

end MarketMaker.Terminal
