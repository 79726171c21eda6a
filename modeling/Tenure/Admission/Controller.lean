import Tenure.Admission.Config
import Tenure.Metrics
import Tenure.Sorted

/-!
# The admission controller

Every endpoint has a limiter: its own if one was registered, else the default.
Limiters are numbered in the order they were put in use, and one limiter may serve
several endpoints; the state of its clients goes with the limiter. Decisions are
counted over all endpoints.
-/

namespace Tenure

/-- How many endpoints may be registered. -/
def maxEndpoints : Nat := 4096

/-- How long the name of an endpoint may be, in bytes. -/
def maxEndpointLength : Nat := 512

/-- Why the controller refused. -/
inductive AdmissionError where
  /-- a limiter cannot be built as configured -/
  | invalidConfig (fault : ConfigFault)
  /-- no limiter is registered for the endpoint -/
  | unknownEndpoint (name : String)
  /-- the name of the endpoint is empty or too long -/
  | nameLength
  /-- there is no room for another endpoint -/
  | tooManyEndpoints

/-- The wording. -/
def AdmissionError.message : AdmissionError → String
  | invalidConfig f => "invalid limiter config: " ++ f.message
  | unknownEndpoint name => "unknown endpoint: " ++ name
  | nameLength => "limit exceeded: endpoint name length"
  | tooManyEndpoints => "limit exceeded: too many endpoints"

/-- The limiters in use and the decisions so far. -/
structure Controller where
  /-- every limiter put in use, by number -/
  limiters : List Limiter
  /-- the number of the limiter of each registered endpoint -/
  endpoints : Table String Nat
  /-- the number of the limiter of all other endpoints -/
  fallback : Nat
  /-- calls admitted, in a 64-bit word -/
  allowed : UInt64
  /-- calls turned away, in a 64-bit word -/
  denied : UInt64

namespace Controller

/-- A controller without registered endpoints. -/
def new (fallback : Limiter) : Controller := ⟨[fallback], Table.empty, 0, 0, 0⟩

/-- A controller whose default limiter is built from a configuration. -/
def ofConfig (c : LimiterConfig) : Except AdmissionError Controller :=
  match c.build with
  | .ok l => .ok (new l)
  | .error f => .error (.invalidConfig f)

/-- Puts a limiter in use: its number. -/
def enlist (c : Controller) (l : Limiter) : Nat × Controller :=
  (c.limiters.length, { c with limiters := c.limiters ++ [l] })

/-- Lets the limiter with a number serve an endpoint, in place of an earlier one. -/
def register (c : Controller) (endpoint : String) (number : Nat) :
    Except AdmissionError Controller :=
  if endpoint.isEmpty || maxEndpointLength < endpoint.utf8ByteSize then .error .nameLength
  else if !c.endpoints.contains endpoint && maxEndpoints ≤ c.endpoints.size then
    .error .tooManyEndpoints
  else .ok { c with endpoints := c.endpoints.insert endpoint number }

/-- Lets a new limiter serve an endpoint. -/
def registerConfig (c : Controller) (endpoint : String) (config : LimiterConfig) :
    Except AdmissionError Controller :=
  match config.build with
  | .error f => .error (.invalidConfig f)
  | .ok l =>
    let (number, c) := c.enlist l
    c.register endpoint number

/-- Gives an endpoint back to the default limiter. -/
def remove (c : Controller) (endpoint : String) : Except AdmissionError Controller :=
  if c.endpoints.contains endpoint then
    .ok { c with endpoints := c.endpoints.erase endpoint }
  else .error (.unknownEndpoint endpoint)

/-- Puts a new default limiter in use. -/
def setDefault (c : Controller) (config : LimiterConfig) : Except AdmissionError Controller :=
  match config.build with
  | .error f => .error (.invalidConfig f)
  | .ok l =>
    let (number, c) := c.enlist l
    .ok { c with fallback := number }

/-- The number of the limiter that decides for an endpoint. -/
def numberFor (c : Controller) (endpoint : String) : Nat :=
  (c.endpoints.get? endpoint).getD c.fallback

/-- A limiter that never saw a call and admits none: what a number out of range
stands for. -/
def noLimiter : Limiter := .fixedWindow (.new 0 0)

/-- The limiter that decides for an endpoint. -/
def limiterFor (c : Controller) (endpoint : String) : Limiter :=
  c.limiters[c.numberFor endpoint]?.getD noLimiter

/-- Counts decisions. -/
def record (c : Controller) (allowed : Bool) (n : Nat) : Controller :=
  if allowed then { c with allowed := c.allowed + UInt64.ofNat n }
  else { c with denied := c.denied + UInt64.ofNat n }

/-- One call of a client at an endpoint. -/
def allow (c : Controller) (endpoint key : String) (now : Nat) : Bool × Controller :=
  let (ok, l) := (c.limiterFor endpoint).allow key now
  let c := { c with limiters := c.limiters.set (c.numberFor endpoint) l }
  (ok, c.record ok 1)

/-- Several calls of a client at one moment: how many were admitted and how many
turned away. -/
def allowMany (c : Controller) (endpoint key : String) (now count : Nat) :
    (Nat × Nat) × Controller :=
  let (decisions, l) := (c.limiterFor endpoint).allowMany key now count
  let allowed := decisions.count true
  let denied := decisions.count false
  let c := { c with limiters := c.limiters.set (c.numberFor endpoint) l }
  ((allowed, denied), (c.record true allowed).record false denied)

/-- The registered endpoints and the names of their limiters, sorted by endpoint. -/
def listing (c : Controller) : List (String × String) :=
  sortBy (fun a b => !(decide (b.1 < a.1)))
    (c.endpoints.entries.map fun e => (e.1, (c.limiters[e.2]?.getD noLimiter).name))

/-- The name of the default limiter. -/
def fallbackName (c : Controller) : String := (c.limiters[c.fallback]?.getD noLimiter).name

/-- The report on the controller. -/
def report (c : Controller) : String :=
  "default: " ++ c.fallbackName ++ "\n" ++
    String.join (c.listing.map fun e => "  " ++ e.1 ++ " -> " ++ e.2 ++ "\n") ++
    "total: " ++ toString c.allowed.toNat ++ " allowed, " ++ toString c.denied.toNat ++ " denied"

end Controller

/-- Counts decisions of an endpoint; no decision touches no metric. -/
def Metrics.recordDecisions (m : Metrics) (endpoint : String) (allowed : Bool) (n : Nat) :
    Metrics :=
  if n = 0 then m else m.add (.admissions endpoint allowed) n

end Tenure
