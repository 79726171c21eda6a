import Tenure.Proofs.Balancing.Acts

/-!
# Routing

Whatever a balancer was asked for before and whichever strategy is in force, a request finds a
server if and only if a registered server is healthy, it goes to such a server, and nobody else
notices (`Balancer.routing_sound`).

The count of a server is a word of 64 bits. It goes up by one with each request that the server gets
and in no other way, so it is at most the number of requests that were routed
(`Balancer.active_le_routed`).
-/

namespace Tenure

namespace Server

variable {s : Server} {n : Nat}

theorem toNat_connected_le (s : Server) : s.connected.active.toNat ≤ s.active.toNat + 1 := by
  rw [connected, UInt64.toNat_add]
  exact Nat.mod_le ..

theorem toNat_connected (room : s.active.toNat + 1 < UInt64.size) :
    s.connected.active.toNat = s.active.toNat + 1 := by
  rw [connected, UInt64.toNat_add]
  exact Nat.mod_eq_of_lt room

/-- A change that adds no request keeps the count low. -/
theorem toNat_on_le {f : Server → Server} (fewer : ∀ s, (f s).active.toNat ≤ s.active.toNat)
    (id : String) (s : Server) : (s.on id f).active.toNat ≤ s.active.toNat :=
  on_cases (motive := fun t => t.active.toNat ≤ s.active.toNat) (fewer s) (Nat.le_refl _) id

end Server

namespace Balancer

variable {b : Balancer} {id : String} {i n : Nat}

/-! ## Counts -/

theorem active_changed_le (b : Balancer) (a : Act) (i : Nat) (s : Server) :
    (b.changed a i s).active.toNat ≤ s.active.toNat + if a = .route then 1 else 0 := by
  cases a with
  | remove id => exact Server.toNat_on_le (f := Server.retired) (fun _ => Nat.le_refl _) id s
  | setHealthy id healthy =>
    exact Server.toNat_on_le (f := Server.marked healthy) (fun _ => Nat.le_refl _) id s
  | complete id =>
    refine Server.toNat_on_le (fun s => ?_) id s
    rw [Server.toNat_released]
    exact Nat.sub_le ..
  | route =>
    rw [changed]
    split
    · exact s.toNat_connected_le
    · exact Nat.le_add_right ..
  | _ => exact Nat.le_refl _

/-- An act adds at most one request to a server, and only if it routes one. -/
theorem active_next_le (distinct : b.Distinct) (a : Act)
    (low : ∀ s ∈ b.fleet, s.active.toNat ≤ n) :
    ∀ s ∈ (b.next a).fleet, s.active.toNat ≤ n + if a = .route then 1 else 0 := by
  intro s hs
  obtain ⟨j, at_j⟩ := List.mem_iff_getElem?.1 hs
  obtain ⟨s, before, rfl⟩ | ⟨-, joined⟩ := next_cases distinct at_j
  · exact Nat.le_trans (active_changed_le ..)
      (Nat.add_le_add_right (low s (List.mem_of_getElem? before)) _)
  · rw [active_of_joining joined]
    exact Nat.zero_le _

/-- **No server counts more requests than were routed.** -/
theorem active_le_routed (distinct : b.Distinct) (low : ∀ s ∈ b.fleet, s.active.toNat ≤ n)
    (acts : List Act) :
    ∀ s ∈ (b.nextAll acts).fleet, s.active.toNat ≤ n + acts.count .route := by
  induction acts generalizing b n with
  | nil => exact low
  | cons a acts ih =>
    intro s hs
    have le := ih (distinct.next a) (active_next_le distinct a low) s hs
    rw [List.count_cons]
    simp only [beq_iff_eq]
    omega

/-! ## One more act -/

/-- What routing one more request comes to. -/
theorem route_finds (b : Balancer) :
    (b.route.1 = none ↔ ∀ s ∈ b.servers, s.healthy = false) ∧
      (b.route.1 = none → b.route.2.fleet = b.fleet) ∧
      ∀ i, b.route.1 = some i → ∃ s ∈ b.servers, s.healthy = true ∧ b.fleet[i]? = some s ∧
        b.route.2.fleet = b.fleet.set i { s with active := s.active + 1 } := by
  rw [← candidates_eq_nil_iff]
  obtain ⟨empty, none, fleet⟩ | ⟨k, i, -, picked, some, fleet⟩ := route_cases b
  · refine ⟨by simp [empty, none], fun _ => fleet, fun i routed => ?_⟩
    rw [none] at routed
    cases routed
  · have candidate := List.mem_of_getElem? picked
    refine ⟨?_, fun none => ?_, fun j routed => ?_⟩
    · simp [some, List.ne_nil_of_mem candidate]
    · rw [some] at none
      cases none
    · rw [some] at routed
      cases routed
      obtain ⟨s, there, registered, healthy⟩ := mem_candidates.1 candidate
      exact ⟨s, List.mem_filter.2 ⟨List.mem_of_getElem? there, registered⟩, healthy, there,
        fleet.trans (modify_eq_set_of there Server.connected)⟩

theorem complete_eq (distinct : b.Distinct) (known : id ∈ b.names) :
    b.perform (.complete id) =
      (.done,
        { b with
          fleet := b.fleet.map fun s =>
            if s.registered ∧ s.id = id then { s with active := UInt64.ofNat (s.active.toNat - 1) }
            else s }) := by
  rw [perform_of_effect distinct rfl, if_pos known]
  have same : Server.on id Server.released = fun s : Server =>
      if s.registered ∧ s.id = id then { s with active := UInt64.ofNat (s.active.toNat - 1) }
      else s := by
    funext s
    simp only [Server.on, Server.named_iff, Server.released_eq]
  rw [same]

/-- **Routing is sound and complete.** Whatever a new balancer was asked for: the registered servers
have different names and are listed in the order in which they joined. A request finds a server
exactly if a registered server is healthy. It then goes to one that is both, whose count rises by
one as a word of 64 bits, and by one altogether unless almost `2 ^ 64` requests were routed, and
nothing else in the fleet changes, servers that were taken out included. To add a server under a
name that is taken, or to take out, mark or complete under a name that is not, is refused and
changes nothing. Completing takes one request, if there is one, away from the server that goes by
the name, and changes nothing else. -/
theorem routing_sound (s : Strategy) (acts : List Act) :
    let b := (new s).nextAll acts
    (b.names.Nodup ∧ b.names = acts.foldl roster []) ∧
    (b.route.1 = none ↔ ∀ sv ∈ b.servers, sv.healthy = false) ∧
    (b.route.1 = none → b.route.2.fleet = b.fleet) ∧
    (∀ i, b.route.1 = some i → ∃ sv ∈ b.servers, sv.healthy = true ∧ b.fleet[i]? = some sv ∧
      b.route.2.fleet = b.fleet.set i { sv with active := sv.active + 1 } ∧
      (acts.count .route + 1 < UInt64.size → (sv.active + 1).toNat = sv.active.toNat + 1)) ∧
    (∀ id ∈ b.names, ∀ address,
      b.perform (.add id address) = (.refused (.duplicateServer id), b)) ∧
    (∀ id, id ∉ b.names → b.perform (.remove id) = (.refused (.unknownServer id), b) ∧
      (∀ healthy, b.perform (.setHealthy id healthy) = (.refused (.unknownServer id), b)) ∧
      b.perform (.complete id) = (.refused (.unknownServer id), b)) ∧
    ∀ id ∈ b.names, b.perform (.complete id) =
      (.done,
        { b with
          fleet := b.fleet.map fun sv =>
            if sv.registered ∧ sv.id = id then
              { sv with active := UInt64.ofNat (sv.active.toNat - 1) }
            else sv }) := by
  intro b
  obtain ⟨distinct, roster⟩ : b.Distinct ∧ b.names = acts.foldl roster (new s).names :=
    names_nextAll (distinct_new s) acts
  obtain ⟨finds, none, some⟩ := route_finds b
  have low : ∀ sv ∈ b.fleet, sv.active.toNat ≤ 0 + acts.count .route :=
    active_le_routed (distinct_new s) nofun acts
  refine ⟨⟨distinct, roster⟩, finds, none, fun i routed => ?_, fun id known address => ?_,
    fun id unknown => ⟨?_, fun healthy => ?_, ?_⟩, fun id known => complete_eq distinct known⟩
  · obtain ⟨sv, listed, healthy, there, fleet⟩ := some i routed
    refine ⟨sv, listed, healthy, there, fleet, fun few => Server.toNat_connected ?_⟩
    have := low sv (List.mem_of_getElem? there)
    omega
  · rw [perform_add, if_pos known]
  · rw [perform_of_effect distinct rfl, if_neg unknown]
  · rw [perform_of_effect distinct rfl, if_neg unknown]
  · rw [perform_of_effect distinct rfl, if_neg unknown]

/-- A strategy that comes back goes on where it was left, and who is taken out keeps its count. -/
example :
    let b := (new (.roundRobin 0)).nextAll
      [.add "S1" "a", .add "S2" "b", .route, .setStrategy .leastConnections, .route,
        .setHealthy "S1" false, .route, .setHealthy "S1" true, .reuseStrategy 0, .remove "S2",
        .add "S2" "c", .route]
    b.names = ["S1", "S2"] ∧ b.fleet.map Server.active = [1, 2, 1] := by
  decide

end Balancer

end Tenure
