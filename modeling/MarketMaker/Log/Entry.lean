import MarketMaker.Log.Level
import MarketMaker.Value.Json
import MarketMaker.Text.Units

/-!
# Log entries

An entry is what a service says: a message and, often, a context of named values. Two places show
it.

* `Entry.line` is the line on the terminal: time, service, coloured level, message and the context
  as JSON.
* `Entry.record` is the line of a log file: one JSON object with its fields sorted.

Some names in a context mean something. A `service` replaces the service, a `message` is appended to
the message, a `level` is lost, and a `timestamp` gives way to the time of the terminal line but is
kept in a file. A message with a format token keeps no context at all. What a context marks as an
`exception` is not written.

Services and messages are mostly texts, but may be any values. A line needs their texts; a record
keeps them as they are.
-/

namespace MarketMaker.Log

/-- Something that a service says. -/
structure Entry (α : Type) where
  /-- The service that says it. -/
  service : Value α
  /-- How severe it is. -/
  level : Level
  /-- What it says. -/
  message : Value α
  /-- Named values that belong to the message. -/
  context : Option (List (String × Value α)) := none

namespace Entry

variable {α : Type}

/-- Whether characters contain a percent sign with a letter that formats a value, or two of them. -/
def hasToken : List Char → Bool
  | '%' :: c :: rest => "scdjifoO%".toList.contains c || hasToken (c :: rest)
  | _ :: rest => hasToken rest
  | [] => false

/-- Whether the message is a text with a format token. -/
def isFormat (e : Entry α) : Bool := e.message.spelling?.any fun s => hasToken s.toList

/-- The context that goes with the message. -/
def fields (e : Entry α) : List (String × Value α) := if e.isFormat then [] else e.context.getD []

/-- Whether the entry is written anywhere: its context must not mark it as an exception. -/
def isWritten (e : Entry α) : Bool :=
  match e.fields.lookup "exception" with
  | some (.bool true) => false
  | _ => true

/-- Whether a threshold lets the entry through; none lets nothing through. -/
def passes (threshold : Option Level) (e : Entry α) : Bool :=
  e.isWritten && threshold.any e.level.passes

/-- The names that the terminal line shows in places of their own. -/
def reserved : List String := ["timestamp", "level", "message", "service"]

/-- The fields that follow the message on the terminal. -/
def details (e : Entry α) : List (String × Value α) :=
  e.fields.filter fun f => !reserved.contains f.1

/-- The colour of a level on the terminal. -/
def colour : Level → String
  | .error => "31"
  | .warn => "33"
  | .info => "32"
  | .debug => "34"

variable [Scalar α] [NumberText α]

omit [NumberText α] in
/-- The message of the context that is appended to the one of the entry, if there is one. -/
def addition? (e : Entry α) : Option (Value α) := (e.fields.lookup "message").filter (·.isTruthy)

/-- The message, or its text with the one of the context appended. -/
def fullMessage (e : Entry α) : Value α :=
  match e.addition? with
  | some v => .string (e.message.text ++ " " ++ v.text)
  | none => e.message

omit [Scalar α] [NumberText α] in
/-- The service that the line names. -/
def shownService (e : Entry α) : Value α := (e.fields.lookup "service").getD e.service

/-- Whether the entry can be recorded: a message that another one is appended to has a text, as has
that other one, and with a context no message has a field by which it claims to match texts. -/
def isRecordable (e : Entry α) : Bool :=
  (match e.addition? with
    | some v => e.message.hasText && v.hasText
    | none => true)
  && !(e.context.isSome && (e.message.get "match").isTruthy)

/-- Whether the entry has a line: the message and the service have a text. -/
def hasLine (e : Entry α) : Bool := e.fullMessage.hasText && e.shownService.hasText

/-- The line on the terminal, without its end, at a given time of day. -/
def line (time : String) (e : Entry α) : String :=
  let level := "\x1b[" ++ colour e.level ++ "m" ++ e.level.name ++ "\x1b[39m"
  let rest := if e.details.isEmpty then "" else " " ++ (Value.object e.details).json
  time ++ " [" ++ e.shownService.text ++ "] " ++ level ++ ": " ++ e.fullMessage.text ++ rest

/-- The line of a log file, without its end, written at a given instant. -/
def record (instant : String) (e : Entry α) : String :=
  let given := Value.ofFields (("service", e.service) :: e.fields)
  let stamp := given.get "timestamp"
  let stamp := if stamp.isTruthy then stamp else .string instant
  let all := match given with
    | .object fs =>
      [("level", .string e.level.name), ("message", e.fullMessage), ("timestamp", stamp)].foldl
        (fun acc f => Value.setField acc f.1 f.2) fs
    | _ => []
  (Value.object all).sorted.json

end Entry

end MarketMaker.Log
