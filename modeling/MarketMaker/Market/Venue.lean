import MarketMaker.Interval
import MarketMaker.Log.Entry
import MarketMaker.Market.Candles
import MarketMaker.Symbol
import MarketMaker.Text.FormEncoding
import MarketMaker.Value.JsonReader

/-!
# Asking the venue for bars

Public candlesticks need no credentials: one request names the pair, the interval and how many bars
are wanted, and the answer is read as bars. The venue refuses to send more than a thousand at once.
-/

namespace MarketMaker.Venue

open Scalar

/-- Where the venue is found. -/
def baseUrl : String := "https://api.gateio.ws/api/v4"

/-- Where candlesticks are found at the venue. -/
def candlesticksPath : String := "/spot/candlesticks"

/-- The most bars one request may ask for. -/
def maxLimit : Nat := 1000

/-- How the program introduces itself. -/
def userAgent : String := "adaptive-mm-params/0.1"

/-- The headers of a request. -/
def headers : List (String × String) := [("Accept", "application/json"), ("User-Agent", userAgent)]

/-- The answer to a request. -/
structure Response where
  /-- The status code. -/
  status : Nat := 200
  /-- The words that go with it. -/
  phrase : String := ""
  /-- The text of the answer. -/
  body : String := ""

/-- The statuses of answers without a body. -/
def Response.bodiless : List Nat := [204, 205, 304]

/-- Whether a character can stand in the phrase of an answer. -/
def Response.isPhraseChar (c : Char) : Bool :=
  c == '\t' || (' ' ≤ c && c ≤ '~') || (0x80 ≤ c.toNat && c.toNat ≤ 0xFF)

/-- The answer of some parts that were read, unless they make none: a status is a number from 200 to
599, a phrase has neither line ends nor characters beyond one byte, and some statuses go without a
body. -/
def Response.ofParts {α : Type} (status : Int) (phrase : String) (body : Option String) :
    Except (Failure α) Response :=
  match (Text.codes phrase.toList).zipIdx.find? fun (unit, _) => 0xFF < unit with
  | some (unit, place) =>
    .error (.foreign "TypeError"
      ("Cannot convert argument to a ByteString because the character at index "
        ++ toString place ++ " has a value of " ++ toString unit
        ++ " which is greater than 255.") {})
  | none =>
    if status < 200 || 599 < status then
      .error (.foreign "RangeError"
        "init[\"status\"] must be in the range of 200 to 599, inclusive." {})
    else if !phrase.toList.all isPhraseChar then
      .error (.foreign "TypeError" "Invalid statusText" {})
    else if body.isSome && bodiless.contains status.toNat then
      .error (.foreign "TypeError"
        ("Response constructor: Invalid response status code " ++ toString status) {})
    else .ok ⟨status.toNat, phrase, body.getD ""⟩

/-- Whether an answer reports success. -/
def Response.isOk (r : Response) : Bool := 200 ≤ r.status && r.status ≤ 299

variable {α : Type} [Scalar α]

/-- The answer of some parts, which are read first: a body and a phrase are texts, and a status is
the rest of a whole number by `2 ^ 16`, with its sign. A body that is null is none. -/
def Response.read [NumberText α] (status : α) (phrase body : Value α) :
    Except (Failure α) Response := do
  if !body.hasText || !phrase.hasText then throw .textless
  checkUsable [status]
  ofParts ((truncate status).tmod 65536) phrase.words
    (if body.isMissing then none else some body.text)

/-- How many bars a request asks for: a whole number of them, at least one. -/
def limit (lookback : α) : α := least (greatest 1 (floor lookback)) (maxLimit : α)

variable [NumberText α]

/-- The address of a request. -/
def url (base : String) (pair : Pair) (interval : Choice Interval α) (lookback : α) : String :=
  base ++ candlesticksPath ++ "?" ++ Text.query [("currency_pair", pair.venue),
    ("interval", interval.text), ("limit", NumberText.text (limit lookback))]

/-- The pair of a symbol, which has to be a text that writes one. -/
def pairOf (symbol : Value α) : Except (Failure α) Pair :=
  match symbol.spelling? with
  | none => .error (.foreign "TypeError" "symbol.toUpperCase is not a function" {})
  | some symbol =>
    match Pair.parse? symbol with
    | some pair => .ok pair
    | none => .error (.foreign "Error" (Pair.unreadable symbol) {})

/-- The address of a request for a symbol, unless the symbol cannot be read or something that the
address is written from has no text. -/
def request (base : Value α) (symbol : Value α) (interval : Choice Interval α) (lookback : α) :
    Except (Failure α) String := do
  checkUsable [lookback]
  let pair ← pairOf symbol
  if !interval.value.hasText || !base.hasText then throw .textless
  return url base.text pair interval lookback

/-- Characters without a byte order mark in front. -/
def withoutMark : List Char → List Char
  | c :: rest => if c.toNat = 0xFEFF then rest else c :: rest
  | [] => []

/-- The text that a body carries: of the byte order marks in front, the first two belong to the
bytes and not to the text. -/
def payloadText (body : String) : String := String.ofList (withoutMark (withoutMark body.toList))

/-- The bars of an answer. -/
def bars (r : Response) : Except (Failure α) (List (Bar α)) :=
  if !r.isOk then
    .error (EngineError.provider (.badStatus (toString r.status) r.phrase)).failure
  else
    match Value.ofJson (payloadText r.body) with
    | .error fault => .error (.foreign "SyntaxError" fault.message {})
    | .ok payload => (Candles.parse payload).mapError (·.failure)

/-- The line about fetched bars. -/
def fetched (symbol : Value α) (interval : Choice Interval α) (lookback : α) (received : Nat) :
    Log.Entry α :=
  ⟨"gateio-kline-provider", .debug, "Fetched candlesticks",
    some [("symbol", symbol), ("interval", interval.value),
      ("requested", .number (limit lookback)), ("received", .number (received : α))]⟩

end MarketMaker.Venue
