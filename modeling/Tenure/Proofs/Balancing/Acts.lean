import Tenure.Proofs.Balancing.Basic

/-!
# Rows of acts

A balancer is asked for one thing after the other (`Balancer.Act`): servers join, leave, go down and
come up, strategies change, requests are routed and completed. A refusal leaves it as it is.

Whatever it is asked for, no two registered servers have the same name (`Balancer.names_nextAll`),
and an act changes the servers of the fleet one by one or appends a new one (`Balancer.fleet_next`).
-/

namespace Tenure

namespace Balancer

variable {b : Balancer} {id : String} {f : Server → Server} {j : Nat} {t : Server}

/-- What a balancer may be asked for. -/
inductive Act where
  /-- a server is to join -/
  | add (id address : String)
  /-- a server is to be taken out -/
  | remove (id : String)
  /-- a server is to count as healthy, or as down -/
  | setHealthy (id : String) (healthy : Bool)
  /-- a request of a server is to be released -/
  | complete (id : String)
  /-- a strategy is to be in force, whatever cursor it comes with -/
  | setStrategy (s : Strategy)
  /-- a strategy that was in force before is to be in force again -/
  | reuseStrategy (number : Nat)
  /-- a request is to be routed -/
  | route
  deriving DecidableEq

/-- What it answers. -/
inductive Answer where
  /-- the server has joined -/
  | added (s : Server)
  /-- it was done -/
  | done
  /-- it was refused -/
  | refused (e : BalancerError)
  /-- the position in the fleet of the server that got the request, if any did -/
  | routed (i : Option Nat)
  deriving DecidableEq

/-- The answer to an operation; a refusal leaves the balancer as it is. -/
def settled (b : Balancer) : Except BalancerError Balancer → Answer × Balancer
  | .ok b' => (.done, b')
  | .error e => (.refused e, b)

/-- Does what it is asked for. -/
def perform (b : Balancer) : Act → Answer × Balancer
  | .add id address =>
    match b.addServer id address with
    | .ok (s, b') => (.added s, b')
    | .error e => (.refused e, b)
  | .remove id => b.settled (b.removeServer id)
  | .setHealthy id healthy => b.settled (b.setHealthy id healthy)
  | .complete id => b.settled (b.complete id)
  | .setStrategy s => (.done, b.setStrategy s)
  | .reuseStrategy number => (.done, b.reuseStrategy number)
  | .route => (.routed b.route.1, b.route.2)

/-- The balancer after an act. -/
def next (b : Balancer) (a : Act) : Balancer := (b.perform a).2

/-- The balancer after a row of acts. -/
def nextAll (b : Balancer) (acts : List Act) : Balancer := acts.foldl next b

/-- What an act does to the server that it names. -/
def Act.effect? : Act → Option (String × (Server → Server))
  | remove id => some (id, Server.retired)
  | setHealthy id healthy => some (id, Server.marked healthy)
  | complete id => some (id, Server.released)
  | _ => none

/-- **An act on a name** does what it does to the server that goes by it and to nothing else. If
there is none it is refused and nothing changes. -/
theorem perform_of_effect (distinct : b.Distinct) {a : Act} (effect : a.effect? = some (id, f)) :
    b.perform a =
      if id ∈ b.names then (.done, { b with fleet := b.fleet.map (Server.on id f) })
      else (.refused (.unknownServer id), b) := by
  have done : b.perform a = b.settled (b.update id f) := by
    cases a <;> cases effect <;> rfl
  rw [done, update_eq distinct]
  split <;> rfl

/-- **A server joins** unless its name is taken. -/
theorem perform_add (b : Balancer) (id address : String) :
    b.perform (.add id address) =
      if id ∈ b.names then (.refused (.duplicateServer id), b)
      else (.added ⟨id, address, 0, true, true⟩,
        { b with fleet := b.fleet ++ [⟨id, address, 0, true, true⟩] }) := by
  rw [perform, addServer_eq]
  by_cases known : id ∈ b.names
  · simp only [if_pos known]
  · simp only [if_neg known]

/-- The names of those who have joined and were not taken out, in the order in which they joined. -/
def roster : List String → Act → List String
  | names, .add id _ => if id ∈ names then names else names ++ [id]
  | names, .remove id => names.filter (· ≠ id)
  | names, _ => names

theorem filterMap_retired (id : String) (fleet : List Server) :
    (fleet.map (Server.on id Server.retired)).filterMap Server.tag =
      (fleet.filterMap Server.tag).filter (· ≠ id) := by
  induction fleet with
  | nil => rfl
  | cons s fleet ih =>
    rw [List.map_cons, List.filterMap_cons, List.filterMap_cons, Server.tag_on_retired]
    cases tag : s.tag with
    | none => simpa using ih
    | some name =>
      by_cases own : name = id
      · simpa [own] using ih
      · simpa [own] using ih

/-- **Who is registered** is what joining and taking out make of it, whatever else happens. -/
theorem names_next (distinct : b.Distinct) (a : Act) : (b.next a).names = roster b.names a := by
  cases a with
  | add id address =>
    rw [next, perform_add, roster]
    split
    · rfl
    · simp [names, servers]
  | remove id =>
    rw [next, perform_of_effect distinct rfl, roster]
    split
    · rw [names_eq, filterMap_retired, ← names_eq]
    · next unknown =>
      refine (List.filter_eq_self.2 fun name hn => ?_).symm
      exact decide_eq_true fun own => unknown (own ▸ hn)
  | setHealthy id healthy =>
    rw [next, perform_of_effect distinct rfl]
    split
    · exact names_of_tags (map_tag_on (Server.tag_marked healthy) id b.fleet)
    · rfl
  | complete id =>
    rw [next, perform_of_effect distinct rfl]
    split
    · exact names_of_tags (map_tag_on Server.tag_released id b.fleet)
    · rfl
  | setStrategy s => rfl
  | reuseStrategy number => rfl
  | route => exact names_route b

theorem nodup_roster {names : List String} (nodup : names.Nodup) (a : Act) :
    (roster names a).Nodup := by
  cases a with
  | add id address =>
    rw [roster]
    split
    · exact nodup
    · next new => exact (List.nodup_append_comm.1 (List.nodup_cons.2 ⟨new, nodup⟩))
  | remove id => exact nodup.filter _
  | _ => exact nodup

theorem Distinct.next (distinct : b.Distinct) (a : Act) : (b.next a).Distinct := by
  rw [Distinct, names_next distinct]
  exact nodup_roster distinct a

theorem distinct_new (s : Strategy) : (new s).Distinct := List.nodup_nil

/-- **No two registered servers have the same name**, and who is registered is told by the acts. -/
theorem names_nextAll (distinct : b.Distinct) (acts : List Act) :
    (b.nextAll acts).Distinct ∧ (b.nextAll acts).names = acts.foldl roster b.names := by
  induction acts generalizing b with
  | nil => exact ⟨distinct, rfl⟩
  | cons a acts ih =>
    obtain ⟨distinct', same⟩ := ih (distinct.next a)
    rw [names_next distinct] at same
    exact ⟨distinct', same⟩

/-! ## What an act does to the fleet -/

/-- What becomes of the server at position `i`. -/
def changed (b : Balancer) (a : Act) (i : Nat) (s : Server) : Server :=
  match a with
  | .remove id => s.on id Server.retired
  | .setHealthy id healthy => s.on id (Server.marked healthy)
  | .complete id => s.on id Server.released
  | .route => if b.route.1 = some i then s.connected else s
  | _ => s

/-- The server that joins. -/
def joining (b : Balancer) : Act → Option Server
  | .add id address => if id ∈ b.names then none else some ⟨id, address, 0, true, true⟩
  | _ => none

/-- It has no requests yet. -/
theorem active_of_joining {a : Act} {s : Server} (joined : b.joining a = some s) :
    s.active = 0 := by
  cases a with
  | add id address =>
    rw [joining] at joined
    split at joined
    · cases joined
    · cases joined
      rfl
  | _ => cases joined

theorem map_on_of_unknown (unknown : id ∉ b.names) (f : Server → Server) :
    b.fleet.map (Server.on id f) = b.fleet := by
  refine (List.map_congr_left fun s hs => ?_).trans (List.map_id _)
  exact if_neg fun own => unknown (mem_names.2 ⟨s, hs, own⟩)

theorem fleet_next_of_effect (distinct : b.Distinct) {a : Act} (effect : a.effect? = some (id, f)) :
    (b.next a).fleet = b.fleet.map (Server.on id f) := by
  rw [next, perform_of_effect distinct effect]
  split
  · rfl
  · next unknown => exact (map_on_of_unknown unknown f).symm

/-- **All that an act can do to the fleet.** -/
theorem fleet_next (distinct : b.Distinct) (a : Act) :
    (b.next a).fleet = b.fleet.mapIdx (b.changed a) ++ (b.joining a).toList := by
  have same : ∀ f : Server → Server, b.fleet.map f = b.fleet.mapIdx fun _ => f := fun f =>
    List.ext_getElem? fun i => by rw [List.getElem?_map, List.getElem?_mapIdx]
  have kept : b.fleet = b.fleet.mapIdx fun _ s => s := (List.map_id' _).symm.trans (same _)
  cases a with
  | add id address =>
    rw [next, perform_add, joining]
    by_cases known : id ∈ b.names
    · rw [if_pos known, if_pos known]
      exact kept.trans (List.append_nil _).symm
    · rw [if_neg known, if_neg known]
      exact congrArg (· ++ _) kept
  | remove id =>
    rw [fleet_next_of_effect distinct rfl, same]
    exact (List.append_nil _).symm
  | setHealthy id healthy =>
    rw [fleet_next_of_effect distinct rfl, same]
    exact (List.append_nil _).symm
  | complete id =>
    rw [fleet_next_of_effect distinct rfl, same]
    exact (List.append_nil _).symm
  | setStrategy s => exact kept.trans (List.append_nil _).symm
  | reuseStrategy number => exact kept.trans (List.append_nil _).symm
  | route =>
    refine Eq.trans ?_ (List.append_nil _).symm
    refine List.ext_getElem? fun j => ?_
    rw [List.getElem?_mapIdx, next, perform]
    obtain ⟨-, none, fleet⟩ | ⟨k, i, -, -, some, fleet⟩ := route_cases b
    · cases there : b.fleet[j]? <;> simp [changed, fleet, none, there]
    · cases there : b.fleet[j]? <;> simp [changed, fleet, some, there, List.getElem?_modify]

/-- A server of the fleet was there before, or has just joined. -/
theorem next_cases (distinct : b.Distinct) (there : (b.next a).fleet[j]? = some t) :
    (∃ s, b.fleet[j]? = some s ∧ t = b.changed a j s) ∨
      j = b.fleet.length ∧ b.joining a = some t := by
  rw [fleet_next distinct, List.getElem?_append, List.length_mapIdx, List.getElem?_mapIdx] at there
  split at there
  · obtain ⟨s, before, rfl⟩ := Option.map_eq_some_iff.1 there
    exact .inl ⟨s, before, rfl⟩
  · obtain ⟨inside, new⟩ := List.getElem?_eq_some_iff.1 there
    cases joined : b.joining a with
    | none => simp [joined] at inside
    | some s =>
      simp only [joined, Option.toList_some, List.length_singleton] at inside new
      simp only [List.getElem_singleton] at new
      exact .inr ⟨by omega, congrArg some new⟩

theorem length_le_next (distinct : b.Distinct) (a : Act) :
    b.fleet.length ≤ (b.next a).fleet.length := by
  rw [fleet_next distinct, List.length_append, List.length_mapIdx]
  exact Nat.le_add_right ..

/-- Nobody who was taken out comes back. -/
theorem registered_of_changed (after : (b.changed a j t).registered = true) :
    t.registered = true := by
  have back : ∀ {f : Server → Server} {id}, ((f t).registered = true → t.registered = true) →
      (t.on id f).registered = true → t.registered = true := fun back =>
    Server.on_cases (motive := fun s => s.registered = true → t.registered = true) back id _
  cases a with
  | remove id => exact back (f := Server.retired) (fun out => nomatch out) after
  | setHealthy id healthy => exact back (f := Server.marked healthy) (fun same => same) after
  | complete id =>
    refine back (fun same => ?_) after
    rw [Server.released_eq] at same
    exact same
  | route =>
    rw [changed] at after
    split at after
    · exact after
    · exact after
  | _ => exact after

end Balancer

end Tenure
