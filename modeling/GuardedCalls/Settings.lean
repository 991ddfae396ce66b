/-
GuardedCalls.Settings — what a session is set to do.

* `Settings` — the settings, `Settings.standard` the ones that hold unless
  others are given.
* `Settings.ofEnvironment` — the settings of environment variables. A
  variable that is unset or blank leaves the standard in place; digits may
  be parted by underscores. The first variable that does not read is the
  error, and then the first rule between settings that is broken.
-/
import GuardedCalls.Random.Length
import GuardedCalls.Text.Blank
import GuardedCalls.Text.Numeral

namespace GuardedCalls

/-- What a session is set to do. -/
structure Settings where
  /-- Where random numbers begin; anywhere if there is no seed. -/
  seed : Option UInt64
  /-- How often an excluded number is drawn again. -/
  attempts : Nat
  /-- The lengths of bytes, texts and arrays. -/
  lengths : Random.Lengths
  /-- The gas that a call may use. -/
  gasLimit : Nat
  /-- Where the rule file is, if there is one. -/
  rulesPath : Option String
  /-- How often, in percent, a call comes from a new account. -/
  newAccountPercent : Nat
  /-- The largest balance of a new account. -/
  maxBalance : Nat
  deriving DecidableEq, Repr

/-- The gas that a call may use unless something else is set. -/
def standardGasLimit : Nat := 1000000

namespace Settings

/-- The settings that hold unless others are given. -/
def standard : Settings where
  seed := none
  attempts := 64
  lengths := Random.Lengths.standard
  gasLimit := standardGasLimit
  rulesPath := none
  newAccountPercent := 25
  maxBalance := 10000000000

/-- What is wrong with settings. -/
inductive Fault
  /-- A variable does not read. -/
  | unreadable (name text : String) (fault : Text.NumeralFault)
  /-- A percentage above a hundred. -/
  | percentTooLarge (percent : Nat)
  /-- A length of zero. -/
  | noLength
  /-- A mean above the limit. -/
  | meanAboveLimit (lengths : Random.Lengths)
  deriving DecidableEq, Repr

/-- The front part of the names of all variables. -/
def variableStem : String := "GAS_FUZZ_"

/-- The wording of a fault. -/
def Fault.message : Fault → String
  | .unreadable name text fault =>
    "invalid " ++ variableStem ++ name ++ " '" ++ text ++ "': " ++ fault.message
  | .percentTooLarge percent =>
    variableStem ++ "NEW_ACCOUNT_PERCENT (" ++ Nat.repr percent ++ ") exceeds 100"
  | .noLength =>
    variableStem ++ "MEAN_LENGTH and " ++ variableStem ++ "MAX_LENGTH must be positive"
  | .meanAboveLimit lengths =>
    variableStem ++ "MEAN_LENGTH (" ++ Nat.repr lengths.mean ++ ") exceeds " ++ variableStem ++
      "MAX_LENGTH (" ++ Nat.repr lengths.max ++ ")"

/-- The values of environment variables, without the common front part of
their names. -/
abbrev Environment := String → Option String

/-- The text of a variable without the blanks around it, if it has any. -/
def setting? (env : Environment) (name : String) : Option String :=
  match env name with
  | some value => if Text.trim value = "" then none else some (Text.trim value)
  | none => none

/-- The number of a variable, up to a limit. -/
def number? (env : Environment) (name : String) (limit : Nat) : Except Fault (Option Nat) :=
  match setting? env name with
  | none => .ok none
  | some text =>
    match Text.readNatural limit (String.ofList (text.toList.filter (· ≠ '_'))) with
    | .ok n => .ok (some n)
    | .error fault => .error (.unreadable name text fault)

/-- The number of a variable, or a standard one. -/
def numberOr (env : Environment) (name : String) (limit : Nat) (standard : Nat) :
    Except Fault Nat := do
  return (← number? env name limit).getD standard

/-- Settings that keep the rules between them. -/
def check (s : Settings) : Except Fault Settings :=
  if 100 < s.newAccountPercent then .error (.percentTooLarge s.newAccountPercent)
  else if s.lengths.mean = 0 ∨ s.lengths.max = 0 then .error .noLength
  else if s.lengths.max < s.lengths.mean then .error (.meanAboveLimit s.lengths)
  else .ok s

/-- The settings of environment variables. -/
def ofEnvironment (env : Environment) : Except Fault Settings := do
  let seed ← number? env "SEED" Text.maxWord64
  let attempts ← numberOr env "MAX_ATTEMPTS" Text.maxWord64 standard.attempts
  let mean ← numberOr env "MEAN_LENGTH" Text.maxWord64 standard.lengths.mean
  let max ← numberOr env "MAX_LENGTH" Text.maxWord64 standard.lengths.max
  let gasLimit ← numberOr env "CALL_GAS_LIMIT" Text.maxWord64 standard.gasLimit
  let newAccountPercent ←
    numberOr env "NEW_ACCOUNT_PERCENT" (2 ^ 8 - 1) standard.newAccountPercent
  let maxBalance ← numberOr env "MAX_BALANCE" (2 ^ 128 - 1) standard.maxBalance
  check {
    seed := seed.map UInt64.ofNat
    attempts
    lengths := ⟨mean, max⟩
    gasLimit
    rulesPath := setting? env "RULES"
    newAccountPercent
    maxBalance }

end Settings

end GuardedCalls
