import Tenure.Metrics

/-!
# Balancing

Requests are spread over a fleet of servers. A request goes to a registered,
healthy server picked by the strategy in force and counts as active there until
it is completed.

*Round robin* walks a free-running cursor, a 64-bit word, round the healthy
servers. *Least connections* takes the server with the fewest active requests, the
earliest of several. A strategy that is put out of force keeps its cursor and can
be put in force again.

A server taken out stays in the fleet's record but is no longer registered: no
operation reaches it any more.
-/

namespace Tenure

/-- A server of the fleet. -/
structure Server where
  /-- what clients call it -/
  id : String
  /-- where it is -/
  address : String
  /-- requests routed to it and not completed -/
  active : UInt64
  /-- whether it takes requests -/
  healthy : Bool
  /-- whether it still belongs to the balancer -/
  registered : Bool
  deriving DecidableEq, Repr

/-- The line that describes a server. -/
def Server.text (s : Server) : String :=
  s.id ++ " (" ++ s.address ++ ") active=" ++ toString s.active.toNat ++
    (if s.healthy then " healthy" else " down")

/-- A way to pick one of several servers. -/
inductive Strategy where
  /-- one after the other, starting from the cursor -/
  | roundRobin (cursor : UInt64)
  /-- the one with the fewest active requests -/
  | leastConnections
  deriving DecidableEq, Repr

namespace Strategy

/-- Its name. -/
def name : Strategy → String
  | roundRobin _ => "round_robin"
  | leastConnections => "least_connections"

/-- The strategy of a given name, before its first use. -/
def ofName? : String → Option Strategy
  | "round_robin" => some (roundRobin 0)
  | "least_connections" => some leastConnections
  | _ => none

/-- The position of the first smallest load. -/
def lightest : List UInt64 → Option Nat
  | [] => none
  | n :: rest =>
    match lightest rest with
    | none => some 0
    | some i => if (rest[i]?.getD 0) < n then some (i + 1) else some 0

/-- Only of no loads at all none is the smallest. -/
theorem lightest_eq_none_iff {loads : List UInt64} : lightest loads = none ↔ loads = [] := by
  cases loads with
  | nil => simp [lightest]
  | cons n rest =>
    simp only [lightest]
    split
    · simp
    · split <;> simp

/-- The position of the first smallest load is one of the list, nothing is smaller than
the load there, and everything before it is larger. -/
theorem exists_first_least_of_lightest {loads : List UInt64} {i : Nat}
    (h : lightest loads = some i) :
    ∃ n, loads[i]? = some n ∧ (∀ m ∈ loads, n ≤ m) ∧ ∀ m ∈ loads.take i, n < m := by
  induction loads generalizing i with
  | nil => simp [lightest] at h
  | cons a rest ih =>
    simp only [lightest] at h
    split at h
    · rename_i empty
      obtain rfl := lightest_eq_none_iff.1 empty
      obtain rfl := Option.some.inj h
      exact ⟨a, by simp⟩
    · rename_i j rest_j
      obtain ⟨n, at_j, least, first⟩ := ih rest_j
      rw [at_j, Option.getD_some] at h
      split at h
      · rename_i lt
        obtain rfl := Option.some.inj h
        refine ⟨n, by simpa using at_j, ?_, ?_⟩
        · intro m hm
          rcases List.mem_cons.1 hm with rfl | hm
          · exact UInt64.le_of_lt lt
          · exact least m hm
        · intro m hm
          rw [List.take_succ_cons] at hm
          rcases List.mem_cons.1 hm with rfl | hm
          · exact lt
          · exact first m hm
      · rename_i ge
        obtain rfl := Option.some.inj h
        refine ⟨a, by simp, ?_, by simp⟩
        intro m hm
        rcases List.mem_cons.1 hm with rfl | hm
        · exact UInt64.le_refl _
        · exact UInt64.le_trans (UInt64.not_lt.1 ge) (least m hm)

/-- Picks a position in a list of loads; the cursor moves on only if there is
something to pick from. -/
def select (s : Strategy) (loads : List UInt64) : Option Nat × Strategy :=
  match s with
  | roundRobin cursor =>
    if loads.isEmpty then (none, s)
    else (some (cursor.toNat % loads.length), roundRobin (cursor + 1))
  | leastConnections => (lightest loads, s)

/-- A pick fails only if there is nothing to pick from. -/
theorem select_eq_none_iff {s : Strategy} {loads : List UInt64} :
    (s.select loads).1 = none ↔ loads = [] := by
  cases s with
  | roundRobin cursor => cases loads <;> simp [select]
  | leastConnections => exact lightest_eq_none_iff

/-- A pick is a position of the list. -/
theorem lt_of_select {s : Strategy} {loads : List UInt64} {i : Nat}
    (h : (s.select loads).1 = some i) : i < loads.length := by
  cases s with
  | roundRobin cursor =>
    cases loads with
    | nil => simp [select] at h
    | cons a rest =>
      obtain rfl : cursor.toNat % (a :: rest).length = i := by simpa [select] using h
      exact Nat.mod_lt _ (by simp)
  | leastConnections =>
    obtain ⟨n, at_i, -⟩ := exists_first_least_of_lightest h
    exact (List.getElem?_eq_some_iff.1 at_i).1

end Strategy

/-- Why the balancer refused. -/
inductive BalancerError where
  /-- no registered server has this name -/
  | unknownServer (id : String)
  /-- a registered server has this name already -/
  | duplicateServer (id : String)
  deriving DecidableEq, Repr

namespace BalancerError

/-- The wording. -/
def message : BalancerError → String
  | unknownServer id => "unknown server: " ++ id
  | duplicateServer id => "server already registered: " ++ id

end BalancerError

/-- A fleet of servers and the strategies in use. -/
structure Balancer where
  /-- every server ever added, in order of addition -/
  fleet : List Server
  /-- every strategy ever put in force -/
  strategies : List Strategy
  /-- the position of the strategy in force -/
  current : Nat
  /-- what is counted -/
  metrics : Metrics

namespace Balancer

/-- A balancer without servers. -/
def new (s : Strategy) : Balancer := ⟨[], [s], 0, Metrics.empty⟩

/-- The servers that belong to the balancer, in order of addition. -/
def servers (b : Balancer) : List Server := b.fleet.filter Server.registered

/-- The strategy in force. -/
def strategy (b : Balancer) : Strategy := b.strategies[b.current]?.getD .leastConnections

/-- The position in the fleet of the registered server with this name. -/
def position? (b : Balancer) (id : String) : Option Nat :=
  b.fleet.findIdx? fun s => s.registered && s.id == id

/-- Changes the registered server with this name. -/
def update (b : Balancer) (id : String) (f : Server → Server) : Except BalancerError Balancer :=
  match b.position? id with
  | none => .error (.unknownServer id)
  | some i => .ok { b with fleet := b.fleet.modify i f }

/-- Adds a server, healthy and without requests. -/
def addServer (b : Balancer) (id address : String) : Except BalancerError (Server × Balancer) :=
  match b.position? id with
  | some _ => .error (.duplicateServer id)
  | none =>
    let s : Server := ⟨id, address, 0, true, true⟩
    .ok (s, { b with fleet := b.fleet ++ [s] })

/-- Takes a server out; its requests are forgotten. -/
def removeServer (b : Balancer) (id : String) : Except BalancerError Balancer :=
  b.update id fun s => { s with registered := false }

/-- Marks a server as healthy or down. -/
def setHealthy (b : Balancer) (id : String) (healthy : Bool) : Except BalancerError Balancer :=
  b.update id fun s => { s with healthy := healthy }

/-- Releases one request of a server, if it has any. -/
def complete (b : Balancer) (id : String) : Except BalancerError Balancer :=
  b.update id fun s => if s.active = 0 then s else { s with active := s.active - 1 }

/-- Puts a strategy not used before in force. -/
def setStrategy (b : Balancer) (s : Strategy) : Balancer :=
  { b with strategies := b.strategies ++ [s], current := b.strategies.length }

/-- Puts an earlier strategy in force again, with the cursor it was left with. -/
def reuseStrategy (b : Balancer) (i : Nat) : Balancer := { b with current := i }

/-- The positions in the fleet of the servers that take requests. -/
def candidates (b : Balancer) : List Nat :=
  (b.fleet.zipIdx.filter fun e => e.1.registered && e.1.healthy).map Prod.snd

/-- The active requests of the server at a position of the fleet. -/
def load (b : Balancer) (i : Nat) : UInt64 := (b.fleet[i]?.map Server.active).getD 0

/-- Routes one request: the position in the fleet of the server that got it, or
none if no registered server is healthy. -/
def route (b : Balancer) : Option Nat × Balancer :=
  let candidates := b.candidates
  -- the cursor is kept with the strategy, also when that is put out of force
  let (pick, s) := b.strategy.select (candidates.map b.load)
  let b := { b with strategies := b.strategies.set b.current s }
  match pick.bind fun k => candidates[k]? with
  | none => (none, { b with metrics := b.metrics.count .routesUnavailable })
  | some i =>
    (some i,
      { b with
        fleet := b.fleet.modify i fun s => { s with active := s.active + 1 }
        metrics := b.metrics.count (.routes s.name) })

end Balancer

end Tenure
