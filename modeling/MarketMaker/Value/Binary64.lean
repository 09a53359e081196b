import MarketMaker.Value
import MarketMaker.Decimal.Layout

/-!
# Texts of binary floating point

The numbers that the engine runs on are written in the fewest digits that read back.
-/

namespace MarketMaker

instance : NumberText Float where
  text := Decimal.numberText
  fixed := Decimal.fixedText

end MarketMaker
