/-!
# Named things

Modes, intervals and trends are each one of a few things, and each thing has a **name** by which it
is asked for and reported.
-/

namespace MarketMaker

/-- A type of a few things with names. -/
class Named (β : Type) where
  /-- Every one of them. -/
  all : List β
  /-- The name of one of them. -/
  name : β → String

/-- The thing of that name. -/
def Named.ofName? {β : Type} [Named β] (name : String) : Option β :=
  (Named.all : List β).find? (Named.name · == name)

end MarketMaker
