import MarketMaker.Choice
import MarketMaker.Config.Issue
import MarketMaker.Mode
import MarketMaker.Value.Json

/-!
# Failures

Everything that can go wrong is a **cause**; the words for it are found in one place,
`Failure.message`.

* `EngineError` holds the causes that the engine itself reports, each with the figures it is about.
* `Failure` adds what comes from outside: a cancelled request, an error of another origin, and a
  thrown value that is no error at all.
* `EngineError.isTransient` tells the causes that a later attempt can outlive from those that need a
  change of configuration. The code decides, also where it was put on the error from outside.
* `EngineError.failure` throws a cause. The words are found when it is thrown, so a cause about a
  figure that has no text fails for want of that text instead.
-/

namespace MarketMaker

/-- A parameter that a calculation cannot work with. -/
inductive ParameterFault (α : Type) where
  /-- The closing price of a bar. -/
  | closePrice (close openTime : α)
  /-- The floor of the spread. -/
  | minSpread (value : α)
  /-- The shape factor. -/
  | shapeFactor (value : α)
  /-- The depth of the order book. -/
  | kappa (value : α)
  /-- The mid price. -/
  | midPrice (value : α)
  /-- The inventory. -/
  | inventory (value : α)
  /-- The volatility. -/
  | volatility (value : α)
  /-- The horizon of the pricing model. -/
  | timeHorizon (value : α)
  /-- The lifetime of an order. -/
  | timeToRefresh (value : α)
  /-- The longest time a position is held. -/
  | maxHoldingTime (value : α)
  /-- The profit factor. -/
  | profitFactor (value : α)
  /-- The bounds of the risk aversion. -/
  | gammaBounds (lower upper : α)
  /-- The step of the learner. -/
  | learningRate (value : α)
  /-- The window of its rewards. -/
  | rewardWindow (value : α)
  /-- The thresholds of volatility, which are out of order. -/
  | volatilityOrder (low high : α)
  /-- Something else, told in words. -/
  | described (message : String)

/-- Settings that do not fit together, or that are wrong one by one. -/
inductive ConfigurationFault (α : Type) where
  /-- The settings that are wrong, one by one. -/
  | issues (issues : List Config.Issue)
  /-- The bounds of the risk aversion are no bounds. -/
  | gammaBounds (lower upper : α)
  /-- The risk factor lies outside the bounds in a mode that keeps to them. -/
  | riskFactorOutside (riskFactor lower upper : α) (mode : Choice Mode α)
  /-- Something else, told in words. -/
  | described (message : String)

/-- What an error carries besides its words: a name, a code, a trace or a cause put on it from
outside. -/
structure Labels (α : Type) where
  /-- The name put on it. -/
  name : Option (Value α) := none
  /-- The code put on it. -/
  code : Option (Value α) := none
  /-- The trace put on it. -/
  trace : Option (Value α) := none
  /-- The cause put on it. -/
  cause : Option (Value α) := none

mutual

/-- The causes that the engine reports. -/
inductive EngineError (α : Type) where
  /-- There are not enough bars. -/
  | insufficientData (required received : α)
  /-- The risk factor is not finite and above zero. -/
  | invalidRiskFactor (value : α)
  /-- What should be a probability is none. -/
  | invalidProbability (name : String) (value : α)
  /-- A parameter cannot be worked with. -/
  | invalidParameter (fault : ParameterFault α)
  /-- The source of market data took too long. -/
  | providerTimeout (milliseconds : α)
  /-- The source of market data failed. -/
  | provider (fault : ProviderFault α)
  /-- The settings are refused. -/
  | configuration (fault : ConfigurationFault α)
  /-- Anything else, with a code and in words. -/
  | general (code : Value α) (message : String)

/-- What went wrong with the source of market data. -/
inductive ProviderFault (α : Type) where
  /-- The request failed. -/
  | requestFailed (cause : Failure α)
  /-- The answer is no success. -/
  | badStatus (status : String) (phrase : String)
  /-- The answer lists no rows. -/
  | badFormat
  /-- A row is no bar. -/
  | badCandle (row : List (Value α))
  /-- Something else, told in words. -/
  | described (message : String)

/-- Something thrown. -/
inductive Failure (α : Type) where
  /-- An error of the engine. -/
  | engine (error : EngineError α) (labels : Labels α)
  /-- The request was cancelled. -/
  | cancelled (labels : Labels α)
  /-- An error of another kind. -/
  | foreign (kind message : String) (labels : Labels α)
  /-- A value that is no error. -/
  | thrown (value : Value α)

end

/-- The failure of wanting the text of something that has none. -/
def Failure.textless {α : Type} : Failure α :=
  .foreign "TypeError" "Cannot convert object to primitive value" {}

/-- The failure of looking for a field in what is not there: in null, or in something undefined. -/
def Failure.unreadable {α : Type} (absent field : String) : Failure α :=
  .foreign "TypeError" ("Cannot read properties of " ++ absent ++ " (reading '" ++ field ++ "')") {}

/-- Refuses figures that can be neither computed with nor compared, since they have no text. -/
def checkUsable {α : Type} [NumberText α] (figures : List α) : Except (Failure α) Unit :=
  if figures.all NumberText.hasText then .ok () else .error .textless

namespace ParameterFault

variable {α : Type} [NumberText α]

/-- The figures that a parameter fault is about. -/
def figures : ParameterFault α → List α
  | closePrice close openTime => [close, openTime]
  | gammaBounds lower upper => [lower, upper]
  | volatilityOrder low high => [low, high]
  | described _ => []
  | minSpread v | shapeFactor v | kappa v | midPrice v | inventory v | volatility v | timeHorizon v
  | timeToRefresh v | maxHoldingTime v | profitFactor v | learningRate v | rewardWindow v => [v]

/-- The words of a parameter fault. -/
def message : ParameterFault α → String
  | closePrice close openTime =>
    "Close price must be positive, got " ++ NumberText.text close ++ " at "
      ++ NumberText.text openTime
  | minSpread v => "minSpread must be non-negative, got " ++ NumberText.text v
  | shapeFactor v => "orderAmountShapeFactor must be positive, got " ++ NumberText.text v
  | kappa v => "Order book depth (kappa) must be positive, got " ++ NumberText.text v
  | midPrice v => "Mid price must be positive, got " ++ NumberText.text v
  | inventory v => "Inventory must be finite, got " ++ NumberText.text v
  | volatility v => "Volatility must be non-negative, got " ++ NumberText.text v
  | timeHorizon v => "Time horizon must be non-negative, got " ++ NumberText.text v
  | timeToRefresh v => "timeToRefresh must be non-negative, got " ++ NumberText.text v
  | maxHoldingTime v => "maxHoldingTime must be non-negative, got " ++ NumberText.text v
  | profitFactor v => "profitFactor must be positive, got " ++ NumberText.text v
  | gammaBounds lower upper =>
    "Gamma bounds must satisfy 0 < gammaMin <= gammaMax, got [" ++ NumberText.text lower ++ ", "
      ++ NumberText.text upper ++ "]"
  | learningRate v => "learningRate must be a non-negative number, got " ++ NumberText.text v
  | rewardWindow v => "rewardWindow must be a positive integer, got " ++ NumberText.text v
  | volatilityOrder .. => "highVolatility must not be below lowVolatility"
  | described text => text

end ParameterFault

namespace ConfigurationFault

variable {α : Type} [NumberText α]

/-- The figures that a configuration fault is about. -/
def figures : ConfigurationFault α → List α
  | gammaBounds lower upper => [lower, upper]
  | riskFactorOutside riskFactor lower upper _ => [riskFactor, lower, upper]
  | issues _ | described _ => []

/-- Whether the words of a configuration fault can be found. -/
def hasWords (fault : ConfigurationFault α) : Bool :=
  fault.figures.all NumberText.hasText && match fault with
    | riskFactorOutside _ _ _ mode => mode.value.hasText
    | _ => true

/-- The words of a configuration fault. -/
def message : ConfigurationFault α → String
  | issues list =>
    "Invalid engine configuration: " ++ String.intercalate "; " (list.map (·.message))
  | gammaBounds lower upper => (ParameterFault.gammaBounds lower upper).message
  | riskFactorOutside riskFactor lower upper mode =>
    "riskFactor " ++ NumberText.text riskFactor ++ " must lie within [" ++ NumberText.text lower
      ++ ", " ++ NumberText.text upper ++ "] in " ++ mode.text ++ " mode"
  | described text => text

end ConfigurationFault

namespace EngineError

variable {α : Type}

/-- The name of the class of errors that the cause belongs to. -/
def name : EngineError α → String
  | insufficientData .. => "InsufficientDataError"
  | invalidRiskFactor .. => "InvalidRiskFactorError"
  | invalidProbability .. => "InvalidProbabilityError"
  | invalidParameter .. => "InvalidParameterError"
  | providerTimeout .. => "DataProviderTimeoutError"
  | provider .. => "DataProviderError"
  | configuration .. => "ConfigurationError"
  | general .. => "EngineError"

/-- The code of the cause. -/
def code : EngineError α → Value α
  | insufficientData .. => .string "INSUFFICIENT_DATA"
  | invalidRiskFactor .. => .string "INVALID_RISK_FACTOR"
  | invalidProbability .. => .string "INVALID_PROBABILITY"
  | invalidParameter .. => .string "INVALID_PARAMETER"
  | providerTimeout .. => .string "DATA_PROVIDER_TIMEOUT"
  | provider .. => .string "DATA_PROVIDER_ERROR"
  | configuration .. => .string "CONFIGURATION_ERROR"
  | general code _ => code

/-- The codes of the causes that a later attempt can outlive. -/
def transientCodes : List String :=
  ["INSUFFICIENT_DATA", "DATA_PROVIDER_TIMEOUT", "DATA_PROVIDER_ERROR"]

/-- Whether a code is one of a cause that a later attempt can outlive. -/
def isTransientCode : Value α → Bool
  | .string code => transientCodes.contains code
  | _ => false

/-- Whether a later attempt can succeed without a change of configuration. -/
def isTransient (e : EngineError α) : Bool := isTransientCode e.code

variable [NumberText α]

/-- Whether the words of the cause can be found: every figure that it is about has a text. -/
def hasWords : EngineError α → Bool
  | insufficientData required received => NumberText.hasText required && NumberText.hasText received
  | invalidRiskFactor v | invalidProbability _ v | providerTimeout v => NumberText.hasText v
  | invalidParameter fault => fault.figures.all NumberText.hasText
  | configuration fault => fault.hasWords
  | provider _ | general .. => true

/-- The cause as it is thrown. -/
def failure (e : EngineError α) : Failure α := if e.hasWords then .engine e {} else .textless

end EngineError

namespace Failure

variable {α : Type}

/-- Whether the request was cancelled by its caller. -/
def isCancellation : Failure α → Bool
  | cancelled _ => true
  | _ => false

/-- The engine's own error, if it is one. -/
def engineError? : Failure α → Option (EngineError α)
  | engine e _ => some e
  | _ => none

/-- What was put on the error from outside. -/
def labels : Failure α → Labels α
  | engine _ l => l
  | cancelled l => l
  | foreign _ _ l => l
  | thrown _ => {}

/-- The name of an error; what is thrown without being an error has none. -/
def name? : Failure α → Option (Value α)
  | engine e l => some (l.name.getD (.string e.name))
  | cancelled l => some (l.name.getD (.string "RequestCancelledError"))
  | foreign kind _ l => some (l.name.getD (.string kind))
  | thrown _ => none

/-- The code of an error, if it has one. -/
def code? : Failure α → Option (Value α)
  | engine e l => some (l.code.getD e.code)
  | cancelled l => l.code
  | foreign _ _ l => l.code
  | thrown _ => none

/-- Whether a later attempt can succeed, where the engine's own error says so. -/
def isTransient? : Failure α → Option Bool
  | engine e l => some (EngineError.isTransientCode (l.code.getD e.code))
  | _ => none

/-- What lies behind a failure: the failure that a request failed with, when this failure only
reports it, or the cause put on it from outside. -/
def cause? : Failure α → Option (Failure α)
  | engine (.provider (.requestFailed cause)) _ => some cause
  | other => other.labels.cause.map thrown

section Message

variable [Scalar α] [NumberText α]

mutual

/-- The words of an engine error. -/
def engineMessage : EngineError α → String
  | .insufficientData required received =>
    "At least " ++ NumberText.text required ++ " price bars required, received "
      ++ NumberText.text received
  | .invalidRiskFactor v =>
    "Risk factor (gamma) must be a positive number, got " ++ NumberText.text v
  | .invalidProbability name v =>
    name ++ " must be strictly between 0 and 1, got " ++ NumberText.text v
  | .invalidParameter fault => fault.message
  | .providerTimeout ms => "Market data request timed out after " ++ NumberText.text ms ++ "ms"
  | .provider fault => providerMessage fault
  | .configuration fault => fault.message
  | .general _ text => text

/-- The words about the source of market data. -/
def providerMessage : ProviderFault α → String
  | .requestFailed cause => "Market data request failed: " ++ message cause
  | .badStatus status phrase => "Gate.io candlesticks API error: " ++ status ++ " " ++ phrase
  | .badFormat => "Invalid response format from Gate.io candlesticks API"
  | .badCandle row => "Invalid candlestick values: " ++ (Value.array row).json
  | .described text => text

/-- The words of a failure; what is no error speaks for itself. -/
def message : Failure α → String
  | .engine e _ => engineMessage e
  | .cancelled _ => "Market data request cancelled"
  | .foreign _ text _ => text
  | .thrown v => v.text

end

/-- The trace of an error: the one put on it, or else its name and words. -/
def trace (f : Failure α) : Value α :=
  f.labels.trace.getD (.string ((f.name?.getD (.string "Error")).text ++ ": " ++ f.message))

omit [Scalar α] in
/-- Whether the words of a failure can be found: what is no error has to have a text. -/
def hasWords : Failure α → Bool
  | thrown v => v.hasText
  | _ => true

/-- The failure as an error: what is none becomes one with its text as words, or the failure of
wanting that text. -/
def toError (f : Failure α) : Except (Failure α) (Failure α) :=
  if !f.hasWords then .error textless
  else
    match f with
    | thrown v => .ok (foreign "Error" v.text {})
    | error => .ok error

end Message

end Failure

end MarketMaker
