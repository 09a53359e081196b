import MarketMaker.Text.Blank
import MarketMaker.Text.UpperCase

/-!
# Trading pairs

A trading pair is written in several ways: `BTC/USDT`, `BTC_USDT`, `BTC-USDT`, or without any
separator when its quote currency is a known one. `Pair.parse?` reads them all, in any case and with
blanks around; `Pair.standard` and `Pair.venue` are the two forms that are written.
-/

namespace MarketMaker

/-- A base and a quote currency. -/
structure Pair where
  /-- The currency that is traded. -/
  base : String
  /-- The currency that it is paid in. -/
  quote : String
  deriving DecidableEq, Repr

namespace Pair

/-- The separators, in the order in which they are looked for. -/
def separators : List Char := ['/', '_', '-']

/-- The quote currencies that are recognized without a separator, in the order in which they are
looked for. -/
def quoteCurrencies : List String := ["USDT", "USDC", "BUSD", "USD", "BTC", "ETH", "BNB"]

/-- The parts before the first separator and between the first and the second. -/
def splitAt (separator : Char) (cs : List Char) : List Char × List Char :=
  (cs.takeWhile (· != separator),
    ((cs.dropWhile (· != separator)).drop 1).takeWhile (· != separator))

/-- The pair of two parts, neither of which may be empty. -/
def ofParts? (base quote : List Char) : Option Pair :=
  if base.isEmpty || quote.isEmpty then none
  else
    some ⟨String.ofList (Text.trimChars base), String.ofList (Text.trimChars quote)⟩

/-- The pair that ends in a quote currency after a base that is not empty. -/
def ofSuffix? (cs : List Char) (quote : String) : Option Pair :=
  if quote.toList.isSuffixOf cs && quote.length < cs.length then
    some ⟨String.ofList (cs.take (cs.length - quote.length)), quote⟩
  else none

/-- The pair that characters without blanks around them, all in upper case, write. -/
def ofChars? (cs : List Char) : Option Pair :=
  match separators.find? cs.contains with
  | some separator =>
    let (base, quote) := splitAt separator cs
    ofParts? base quote
  | none => quoteCurrencies.findSome? (ofSuffix? cs)

/-- The pair that a text writes. -/
def parse? (symbol : String) : Option Pair := ofChars? (Text.trimChars (Text.upper symbol).toList)

/-- The complaint about a text that writes no pair. -/
def unreadable (symbol : String) : String := "Unable to parse symbol: " ++ symbol

/-- The standard form. -/
def standard (p : Pair) : String := p.base ++ "/" ++ p.quote

/-- The form that the trading venue uses. -/
def venue (p : Pair) : String := p.base ++ "_" ++ p.quote

end Pair

end MarketMaker
