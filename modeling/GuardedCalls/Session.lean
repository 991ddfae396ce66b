/-
GuardedCalls.Session — a session that draws arguments and calls.

A session has settings, rules, the guards of the sources it was shown, a
space for each argument that was asked for, wallets of senders and a
stream of random words.

* `ArgumentKey` — an argument: contract, function, type and name.
* `Session.start`, `Session.ofSettings` — a session with the settings, and
  with the rule file that they name.
* `Session.useRules`, `Session.addUnit`, `Session.forget` — other rules,
  further guards, and a fresh start for all spaces. New guards do not
  reach spaces that are already there.
* `SessionError` — why there is no argument or no call.
-/
import GuardedCalls.Abi.Decoding
import GuardedCalls.Guard.Table
import GuardedCalls.Message
import GuardedCalls.Rules.Reader
import GuardedCalls.Settings
import GuardedCalls.Space.Draw
import GuardedCalls.Wallets

namespace GuardedCalls

/-- An argument of a function of a contract. -/
structure ArgumentKey where
  contract : String
  function : String
  type : AbiType
  name : String
  deriving DecidableEq, Repr

/-! ## Errors -/

/-- What leaves an argument without a value. -/
inductive Culprit
  /-- A constraint, when it was applied. -/
  | constraint (constraint : Constraint) (reason : EmptyReason)
  /-- The domain, when a value was drawn; there is none for a type that is
  no number type. -/
  | domain (domain : Option Domain) (reason : EmptyReason)
  /-- A constraint that values of the sort do not honour. -/
  | kind (kind : AbiKind)
  deriving DecidableEq

/-- An argument without a value. -/
structure Unsatisfiable where
  /-- The argument. -/
  key : ArgumentKey
  /-- What leaves it without a value. -/
  culprit : Culprit
  /-- The constraints that were applied before. -/
  applied : List Constraint
  deriving DecidableEq

namespace Unsatisfiable

/-- The text of the culprit. -/
def culpritText (u : Unsatisfiable) : String :=
  match u.culprit with
  | .constraint c _ => c.text
  | .domain (some d) _ => d.text
  | .domain none _ => u.key.type.name
  | .kind kind => kind.text

/-- The text of the reason. -/
def reasonText (u : Unsatisfiable) : String :=
  match u.culprit with
  | .constraint _ reason => reason.message
  | .domain _ reason => reason.message
  | .kind _ => "constraint does not apply"

/-- The wording of the error. -/
def message (u : Unsatisfiable) : String :=
  u.key.contract ++ "." ++ u.key.function ++ "(" ++ u.key.type.name ++ " " ++ u.key.name ++
    "): `" ++ u.culpritText ++ "` leaves no admissible value (" ++ u.reasonText ++
    "); applied before it: " ++ bracketed (u.applied.map Constraint.text)

end Unsatisfiable

/-- A literal that is no number, as a construct that is not supported. -/
def unsupportedLiteral (error : BadLiteral) (location : String) : Unsupported :=
  ⟨error.message, location⟩

/-- Why there is no argument or no call. -/
inductive SessionError
  /-- A bound has no number. -/
  | bound (error : BoundError)
  /-- No value is left. -/
  | unsatisfiable (error : Unsatisfiable)
  /-- A rule does not fit. -/
  | invalidRule (error : InvalidRule)
  /-- A drawn value is none of its type. -/
  | misfit (error : Space.Misfit)
  /-- The type does not read. -/
  | notType (error : TypeError)
  /-- A call has no result. -/
  | execution (error : CallError)
  /-- Call data does not read. -/
  | undecodable (error : BadData)

/-- The wording of an error. -/
def SessionError.message : SessionError → String
  | .bound (.literal error location) =>
    "unsupported construct: " ++ (unsupportedLiteral error location).message
  | .bound (.read error) => "state read failed: " ++ error.message
  | .unsatisfiable error => "unsatisfiable constraints: " ++ error.message
  | .invalidRule error => "invalid rule: " ++ error.message
  | .misfit error => "domain error: " ++ error.message
  | .notType error => "type error: " ++ error.message
  | .execution error => "execution error: " ++ error.message
  | .undecodable error => "decode error: " ++ error.message

/-! ## Sessions -/

/-- A session that draws arguments and calls. -/
structure Session where
  settings : Settings
  rules : RuleBook
  guards : GuardTable
  /-- The spaces of the arguments that were asked for. -/
  spaces : Table ArgumentKey Space
  /-- Who sends calls. -/
  wallets : Wallets
  /-- The random words. -/
  stream : Random.Stream

namespace Session

/-- A session with the settings, on a stream of random words. -/
def start (settings : Settings) (stream : Random.Stream) : Session :=
  { settings
    rules := RuleBook.empty
    guards := GuardTable.empty
    spaces := []
    wallets := Wallets.empty settings.newAccountPercent settings.maxBalance
    stream }

/-- The session with other rules. Its spaces are dropped. -/
def useRules (s : Session) (rules : RuleBook) : Session := { s with rules, spaces := [] }

/-- The session without spaces. -/
def forget (s : Session) : Session := { s with spaces := [] }

/-- The session with the guards of a source unit added. -/
def addUnit (s : Session) (unit : Source.Node) : Session :=
  { s with guards := s.guards.addUnit unit }

/-- A session with the settings, on the stream of their seed, or on a fresh one
if they have none, with the rule file that they name, if they name one. -/
def ofSettings (settings : Settings) (fresh : Random.Stream)
    (file : String → Except FileFault (List UInt8)) : Except InvalidRule Session := do
  let session := start settings ((settings.seed.map Random.Stream.ofSeed).getD fresh)
  match settings.rulesPath with
  | none => return session
  | some path => return session.useRules (← RuleBook.ofFile path (file path))

/-- The space of an argument, if the argument was asked for. -/
def space? (s : Session) (key : ArgumentKey) : Option Space := s.spaces.get? key

/-- How values are drawn. -/
def sampling (s : Session) : Sampling := ⟨s.settings.lengths, s.settings.attempts⟩

end Session

end GuardedCalls
