import Tenure.Admission.ConfigText
import Tenure.Text.Blank
import Tenure.Text.Numeral
import Tenure.Text.Quoted

/-!
# Settings

What can be set from outside, the defaults, and how settings are read from named
variables. Each setting is read from its own variable alone and keeps its default
when that is unset. Variables are read in a fixed order, and the first bad one is
reported with its text as given.
-/

namespace Tenure

/-- Who may confirm or cancel a claim. -/
inductive HolderPolicy where
  /-- only the one it was made for -/
  | strict
  /-- any caller -/
  | any
  deriving DecidableEq, Repr

namespace HolderPolicy

/-- The written form. -/
def text : HolderPolicy → String
  | strict => "strict"
  | any => "any"

/-- The policy of a given name. -/
def ofText? (s : String) : Option HolderPolicy := [strict, any].find? fun p => p.text = s

end HolderPolicy

/-- The settings of the coordinator; times are in milliseconds. -/
structure CoordinatorSettings where
  /-- how long a call waits for locks at most -/
  lockWait : Nat
  /-- how long a hold lasts if the caller does not say -/
  holdTimeout : Nat
  /-- who may confirm or cancel -/
  policy : HolderPolicy
  /-- how long the reaper sleeps at most -/
  reaperIdle : Nat
  deriving DecidableEq, Repr

/-- One second, five minutes, the holder alone, five seconds. -/
def CoordinatorSettings.standard : CoordinatorSettings := ⟨1000, 300000, .strict, 5000⟩

/-- All settings. -/
structure Settings where
  /-- how calls on resources are run -/
  coordinator : CoordinatorSettings
  /-- the limiter of endpoints that have none of their own -/
  defaultLimiter : LimiterConfig
  /-- where metrics are served, if anywhere -/
  metricsPort : Option Nat

/-- A variable that cannot be read. -/
structure SettingsError where
  /-- its name -/
  var : String
  /-- its text as given -/
  value : String
  /-- what is wrong with it -/
  reason : String
  deriving DecidableEq, Repr

/-- The wording. -/
def SettingsError.message (e : SettingsError) : String :=
  "invalid " ++ e.var ++ "=" ++ Text.quoted e.value ++ ": " ++ e.reason

namespace Settings

/-- The defaults. -/
def standard : Settings := ⟨.standard, .tokenBucket 5 2.0, none⟩

/-- Whether two settings are the same; rates are compared as numbers. -/
def same (s t : Settings) : Bool :=
  s.coordinator = t.coordinator && s.defaultLimiter.same t.defaultLimiter &&
    s.metricsPort = t.metricsPort

/-! ## Reading one value -/

/-- A number of milliseconds, at least one. -/
def readMillis (value : String) : Except String Nat :=
  match Text.readNumeral UInt64.size (Text.strip value.toList) with
  | .error e => .error e.message
  | .ok 0 => .error "must be greater than zero"
  | .ok n => .ok n

/-- A holder policy, in letters of either case. -/
def readPolicy (value : String) : Except String HolderPolicy :=
  let name := (Text.trimmed value).map Char.toLower
  match HolderPolicy.ofText? name with
  | some p => .ok p
  | none => .error (ReadFault.unknownVariant name ["strict", "any"]).message

/-- A limiter that could be built, in a document. -/
def readLimiter (lib : Json.Library) (value : String) : Except String LimiterConfig :=
  match LimiterConfig.ofText lib value with
  | .error e => .error e.message
  | .ok c =>
    match c.fault? with
    | some f => .error ("invalid limiter config: " ++ f.message)
    | none => .ok c

/-- A port. -/
def readPort (value : String) : Except String (Option Nat) :=
  match Text.readNumeral UInt16.size (Text.strip value.toList) with
  | .error e => .error e.message
  | .ok n => .ok (some n)

/-! ## Reading all of them -/

/-- The setting held by a variable, or its default. -/
def setting {α : Type} (lookup : String → Option String) (var : String)
    (read : String → Except String α) (default : α) : Except SettingsError α :=
  match lookup var with
  | none => .ok default
  | some value =>
    match read value with
    | .ok a => .ok a
    | .error reason => .error ⟨var, value, reason⟩

/-- Reads the settings from variables. -/
def ofLookup (lib : Json.Library) (lookup : String → Option String) :
    Except SettingsError Settings := do
  let d := standard
  let lockWait ← setting lookup "ALLOT_LOCK_WAIT_MS" readMillis d.coordinator.lockWait
  let holdTimeout ← setting lookup "ALLOT_HOLD_TIMEOUT_MS" readMillis d.coordinator.holdTimeout
  let reaperIdle ← setting lookup "ALLOT_REAPER_IDLE_MS" readMillis d.coordinator.reaperIdle
  let policy ← setting lookup "ALLOT_HOLDER_POLICY" readPolicy d.coordinator.policy
  let limiter ← setting lookup "ALLOT_DEFAULT_LIMITER" (readLimiter lib) d.defaultLimiter
  let port ← setting lookup "ALLOT_METRICS_PORT" readPort d.metricsPort
  return ⟨⟨lockWait, holdTimeout, policy, reaperIdle⟩, limiter, port⟩

end Settings

end Tenure
