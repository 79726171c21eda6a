import Mathlib.Data.List.Count
import Tenure.Proofs.Balancing.Routing

/-!
# Requests in flight

Clients route requests and complete each of them at most once, by the name of the server that got it
(`Balancer.Served`). Beside the balancer, which counts requests per server, the history knows where
each of them went: by position in the fleet, which tells a server from a later one of the same name
(`Balancer.Log`).

The count of a registered server is the number of its requests in flight
(`Balancer.counts_requests`), with one exception. When a server was taken out while requests were in
flight on it and another one has joined under its name, a completion of the old one's request is
charged to the new one, whose count is then too low (`Balancer.late_completion_is_charged`). The
history keeps these charges apart, and they bound what is missing.
-/

namespace Tenure

namespace Balancer

variable {b : Balancer} {id : String} {i j : Nat} {sv t : Server}

/-! ## Histories -/

/-- Who is charged with a completion under a name, unless it is the server at position `i`. -/
def misdirected (b : Balancer) (id : String) (i : Nat) : List Nat :=
  (b.position? id).toList.filter (· ≠ i)

theorem count_misdirected (distinct : b.Distinct) (there : b.fleet[j]? = some t) (id : String)
    (i : Nat) : (b.misdirected id i).count j = if t.named id = true ∧ j ≠ i then 1 else 0 := by
  have named_iff := position?_eq_some_iff distinct there id
  rw [misdirected]
  cases found : b.position? id with
  | none =>
    rw [found] at named_iff
    rw [if_neg fun own => nomatch named_iff.2 own.1]
    rfl
  | some k =>
    rw [found, Option.some_inj] at named_iff
    by_cases other : k = i
    · rw [if_neg fun own => own.2 ((named_iff.2 own.1).symm.trans other)]
      simp [other]
    · simp only [Option.toList_some, List.filter_cons, ne_eq, other, not_false_eq_true, decide_true,
        if_true, List.filter_nil, List.count_singleton, beq_iff_eq, ← named_iff]
      by_cases own : k = j
      · rw [if_pos own, if_pos ⟨own, own ▸ other⟩]
      · rw [if_neg own, if_neg fun h => own h.1]

/-- What the clients of a balancer know and what was charged wrongly. -/
structure Log where
  /-- where the requests are that were routed and not completed, one entry for each -/
  pending : List Nat
  /-- who was charged with the completion of a request of another server, one entry for each -/
  strays : List Nat

/-- What a balancer and its clients can come to: a request that found a server is pending there
until somebody completes it, which happens by the name of that server and at most once. No server
has as many requests as a word of 64 bits cannot count. Whatever else is asked for can happen at any
time. -/
inductive Served (s : Strategy) : Log → Balancer → Prop where
  | start : Served s ⟨[], []⟩ (new s)
  | route {log b} : Served s log b →
      (∀ i, b.route.1 = some i → log.pending.count i + 1 < UInt64.size) →
      Served s { log with pending := log.pending ++ b.route.1.toList } (b.next .route)
  | complete {log b i sv} : Served s log b → i ∈ log.pending → b.fleet[i]? = some sv →
      Served s ⟨log.pending.erase i, log.strays ++ b.misdirected sv.id i⟩
        (b.next (.complete sv.id))
  | other {log b a} : Served s log b → a ≠ .route → (∀ id, a ≠ .complete id) →
      Served s log (b.next a)

/-- A count that a server may have: at most its requests in flight, and what is missing was charged
to it wrongly. -/
def Log.Allows (log : Log) (i : Nat) (n : UInt64) : Prop :=
  n.toNat ≤ log.pending.count i ∧ log.pending.count i ≤ n.toNat + log.strays.count i

/-- What holds of a balancer and its clients at every time. -/
structure Accounted (log : Log) (b : Balancer) : Prop where
  distinct : b.Distinct
  inside : ∀ i ∈ log.pending, i < b.fleet.length
  counted : ∀ {i sv}, b.fleet[i]? = some sv → sv.registered = true → log.Allows i sv.active

section Acts

variable {log log' : Log} {a : Act}

/-- **One act.** What it does to the servers that were there is all that is to be checked. -/
theorem Accounted.next (h : Accounted log b) (inside : ∀ i ∈ log'.pending, i < b.fleet.length)
    (kept : ∀ {j s}, b.fleet[j]? = some s → s.registered = true → log.Allows j s.active →
      log'.Allows j (b.changed a j s).active) :
    Accounted log' (b.next a) := by
  refine ⟨h.distinct.next a,
    fun i hi => Nat.lt_of_lt_of_le (inside i hi) (length_le_next h.distinct a),
    fun {j t} there registered => ?_⟩
  obtain ⟨s, before, rfl⟩ | ⟨rfl, joined⟩ := next_cases h.distinct there
  · have registered := registered_of_changed registered
    exact kept before registered (h.counted before registered)
  · have nowhere : log'.pending.count b.fleet.length = 0 :=
      List.count_eq_zero.2 fun hi => Nat.lt_irrefl _ (inside _ hi)
    rw [Log.Allows, nowhere, active_of_joining joined]
    exact ⟨Nat.le_refl 0, Nat.zero_le _⟩

theorem Accounted.other (h : Accounted log b) (quiet : a ≠ .route)
    (silent : ∀ id, a ≠ .complete id) : Accounted log (b.next a) := by
  refine h.next h.inside fun {j s} _ _ allowed => ?_
  have same : (b.changed a j s).active = s.active := by
    cases a with
    | remove id =>
      exact Server.on_cases (motive := fun t => t.active = s.active) (f := Server.retired)
        rfl rfl id
    | setHealthy id healthy =>
      exact Server.on_cases (motive := fun t => t.active = s.active) (f := Server.marked healthy)
        rfl rfl id
    | complete id => exact absurd rfl (silent id)
    | route => exact absurd rfl quiet
    | _ => rfl
  rw [same]
  exact allowed

theorem Accounted.route (h : Accounted log b)
    (room : ∀ i, b.route.1 = some i → log.pending.count i + 1 < UInt64.size) :
    Accounted { log with pending := log.pending ++ b.route.1.toList } (b.next .route) := by
  cases routed : b.route.1 with
  | none =>
    rw [Option.toList_none, List.append_nil]
    refine h.next h.inside fun {j s} _ _ allowed => ?_
    rw [changed, if_neg (by simp [routed])]
    exact allowed
  | some i =>
    obtain ⟨-, -, found⟩ := route_finds b
    obtain ⟨sv, -, -, there, -⟩ := found i routed
    rw [Option.toList_some]
    refine h.next (fun k hk => ?_) fun {j s} _ _ allowed => ?_
    · obtain before | here := List.mem_append.1 hk
      · exact h.inside k before
      · rw [List.mem_singleton.1 here]
        exact (List.getElem?_eq_some_iff.1 there).1
    · obtain ⟨most, least⟩ := allowed
      rw [changed, Log.Allows, List.count_append, List.count_singleton, routed]
      by_cases own : i = j
      · subst own
        have more := Server.toNat_connected
          (Nat.lt_of_le_of_lt (Nat.add_le_add_right most 1) (room i routed))
        rw [if_pos rfl, if_pos (beq_self_eq_true i), more, Nat.add_right_comm]
        exact ⟨Nat.add_le_add_right most 1, Nat.add_le_add_right least 1⟩
      · rw [if_neg (fun eq => own (Option.some.inj eq)), if_neg (fun eq => own (eq_of_beq eq))]
        exact ⟨most, least⟩

/-- A completion is charged to the server that goes by the name. It is the one that had the request,
or it is put down as charged wrongly. -/
theorem Accounted.complete (h : Accounted log b) (there : b.fleet[i]? = some sv) :
    Accounted ⟨log.pending.erase i, log.strays ++ b.misdirected sv.id i⟩
      (b.next (.complete sv.id)) := by
  refine h.next (fun k hk => h.inside k (List.mem_of_mem_erase hk))
    fun {j s} at_j registered ⟨most, least⟩ => ?_
  rw [changed, Log.Allows, List.count_append, count_misdirected h.distinct at_j, Server.on]
  by_cases own : j = i
  · subst own
    cases there.symm.trans at_j
    have named : sv.named sv.id = true := Server.named_iff.2 ⟨registered, rfl⟩
    rw [if_pos named, Server.toNat_released, List.count_erase_self, if_neg fun h => h.2 rfl]
    omega
  · rw [List.count_erase_of_ne own]
    by_cases named : s.named sv.id = true
    · rw [if_pos named, Server.toNat_released, if_pos ⟨named, own⟩]
      omega
    · rw [if_neg named, if_neg fun h => named h.1]
      exact ⟨most, least⟩

end Acts

/-- **Every history keeps the accounts.** -/
theorem Served.accounted {s : Strategy} {log : Log} (run : Served s log b) : Accounted log b := by
  induction run with
  | start => exact ⟨distinct_new s, nofun, fun there => by simp [new] at there⟩
  | route _ room ih => exact ih.route room
  | complete _ _ there ih => exact ih.complete there
  | other _ quiet silent ih => exact ih.other quiet silent

/-- Completing a request of a registered server that has one takes it away. -/
theorem perform_complete (distinct : b.Distinct) (there : b.fleet[i]? = some sv)
    (registered : sv.registered = true) (busy : sv.active ≠ 0) :
    b.perform (.complete sv.id) =
      (.done, { b with fleet := b.fleet.set i { sv with active := sv.active - 1 } }) := by
  have found : b.position? sv.id = some i :=
    (position?_eq_some_iff distinct there _).2 (Server.named_iff.2 ⟨registered, rfl⟩)
  simp only [perform, complete, update, found, settled, modify_eq_set_of there, if_neg busy]

/-- **Counts are faithful.** In every history the count of a registered server is the number of its
requests in flight, or less by at most as many as were charged to it wrongly. A request in flight is
on a server of the fleet. To complete it takes one request away from that server, if it is still
registered and counts right. If it was taken out and nobody has its name, the completion is refused
and changes nothing. It changes no server that does not go by the name, in any case. -/
theorem counts_requests {s : Strategy} {log : Log} (run : Served s log b) :
    (∀ (i : Nat) (sv : Server), b.fleet[i]? = some sv → sv.registered = true →
      (log.strays.count i = 0 → sv.active.toNat = log.pending.count i) ∧
      sv.active.toNat ≤ log.pending.count i ∧
      log.pending.count i ≤ sv.active.toNat + log.strays.count i) ∧
    ∀ i ∈ log.pending, ∃ sv : Server, b.fleet[i]? = some sv ∧
      (sv.registered = true → log.strays.count i = 0 →
        0 < sv.active ∧ b.perform (.complete sv.id) =
          (.done, { b with fleet := b.fleet.set i { sv with active := sv.active - 1 } })) ∧
      (sv.id ∉ b.names → b.perform (.complete sv.id) = (.refused (.unknownServer sv.id), b)) ∧
      ∀ (j : Nat) (t : Server), b.fleet[j]? = some t → t.named sv.id = false →
        (b.next (.complete sv.id)).fleet[j]? = some t := by
  have h := run.accounted
  have exact_of : ∀ {i sv}, b.fleet[i]? = some sv → sv.registered = true →
      log.strays.count i = 0 → sv.active.toNat = log.pending.count i := by
    intro i sv there registered right
    have ⟨most, least⟩ := h.counted there registered
    omega
  refine ⟨fun i sv there registered =>
    ⟨exact_of there registered, h.counted there registered⟩, fun i pending => ?_⟩
  obtain ⟨sv, there⟩ : ∃ sv, b.fleet[i]? = some sv :=
    ⟨_, List.getElem?_eq_getElem (h.inside i pending)⟩
  refine ⟨sv, there, fun registered right => ?_, fun unknown => ?_, fun j t at_j other => ?_⟩
  · have some : 0 < sv.active := by
      rw [UInt64.lt_iff_toNat_lt, exact_of there registered right]
      exact List.count_pos_iff.2 pending
    exact ⟨some, perform_complete h.distinct there registered (UInt64.pos_iff_ne_zero.1 some)⟩
  · rw [perform_of_effect h.distinct rfl, if_neg unknown]
  · rw [fleet_next_of_effect h.distinct rfl, List.getElem?_map, at_j, Option.map_some, Server.on,
      if_neg (Bool.eq_false_iff.1 other)]

/-- Two servers with a request each, one of them taken out: the other one counts its own. -/
theorem counts_requests_of_two :
    let b := (new (.roundRobin 0)).nextAll
      [.add "S1" "a", .add "S2" "b", .route, .route, .remove "S1"]
    Served (.roundRobin 0) ⟨[0, 1], []⟩ b ∧ b.fleet[1]? = some ⟨"S2", "b", 1, true, true⟩ ∧
      (1 : UInt64).toNat = [0, 1].count 1 := by
  intro b
  have joined := (Served.start (s := .roundRobin 0)).other (a := .add "S1" "a") nofun nofun
    |>.other (a := .add "S2" "b") nofun nofun
  have run : Served (.roundRobin 0) ⟨[0, 1], []⟩ b :=
    ((joined.route (by decide)).route (by decide)).other (a := .remove "S1") nofun nofun
  have there : b.fleet[1]? = some ⟨"S2", "b", 1, true, true⟩ := by decide
  exact ⟨run, there, ((counts_requests run).1 1 _ there rfl).1 rfl⟩

/-- **A late completion is charged to the wrong server.** A server is taken out with a request in
flight, another one joins under its name and gets a request, and the first request is completed. The
new server has a request in flight, which nobody has completed, and counts none. -/
theorem late_completion_is_charged :
    let b := (new (.roundRobin 0)).nextAll
      [.add "S1" "a", .route, .remove "S1", .add "S1" "b", .route, .complete "S1"]
    Served (.roundRobin 0) ⟨[1], [1]⟩ b ∧ b.fleet[1]? = some ⟨"S1", "b", 0, true, true⟩ ∧
      [1].count 1 ≠ (0 : UInt64).toNat := by
  intro b
  have joined := (Served.start (s := .roundRobin 0)).other (a := .add "S1" "a") nofun nofun
  have replaced := (joined.route (by decide)).other (a := .remove "S1") nofun nofun
    |>.other (a := .add "S1" "b") nofun nofun
  let before := (new (.roundRobin 0)).nextAll
    [.add "S1" "a", .route, .remove "S1", .add "S1" "b", .route]
  have both : Served (.roundRobin 0) ⟨[0, 1], []⟩ before := replaced.route (by decide)
  have gone : before.fleet[0]? = some ⟨"S1", "a", 1, true, false⟩ := by decide
  have charged : before.misdirected "S1" 0 = [1] := by decide
  have run := both.complete (by decide) gone
  rw [charged] at run
  exact ⟨run, by decide, by decide⟩

end Balancer

end Tenure
