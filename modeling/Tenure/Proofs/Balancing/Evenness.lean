import Mathlib.Algebra.BigOperators.Group.Finset.Piecewise
import Mathlib.Algebra.Order.BigOperators.Group.Finset
import Mathlib.Data.List.Sort
import Mathlib.Order.Lattice.Nat
import Tenure.Proofs.Balancing.Routing

/-!
# Least connections fills evenly

When requests are routed one after the other under least connections and none is completed
meanwhile, each goes to the candidate with the fewest requests at that time. So a candidate that got
a request is never more than one above another one, and no other way to spread the requests over the
candidates has a smaller peak (`Balancer.fills_evenly`).

What carries the argument is evenness, which every request keeps (`Balancer.Filled.route`). The peak
is then smallest by exchange: to stay below it one would have to give nobody more than it got and
somebody less, which is too few requests in all (`Balancer.peak_le_of_even`).
-/

namespace Tenure

namespace Balancer

open Finset

variable {b b' : Balancer} {i j n : Nat}

/-! ## One request -/

/-- Under least connections a request goes to a candidate with the fewest requests, and to the
earliest of several. -/
theorem least_of_route (least : b.strategy = .leastConnections) (routed : b.route.1 = some i) :
    i ∈ b.candidates ∧ ∀ j ∈ b.candidates,
      (b.load i).toNat ≤ (b.load j).toNat ∧ (j < i → (b.load i).toNat < (b.load j).toNat) := by
  obtain ⟨-, none, -⟩ | ⟨k, i', picked, at_k, some, -⟩ := route_cases b
  · rw [none] at routed
    cases routed
  rw [some] at routed
  cases routed
  refine ⟨List.mem_of_getElem? at_k, fun j hj => ?_⟩
  rw [least] at picked
  obtain ⟨n, at_n, lowest, first⟩ := Strategy.exists_first_least_of_lightest picked
  rw [List.getElem?_map, at_k] at at_n
  cases at_n
  refine ⟨UInt64.le_iff_toNat_le.1 (lowest _ (List.mem_map_of_mem hj)), fun earlier => ?_⟩
  -- the candidates are in order, so an earlier one is at a position before the one picked
  obtain ⟨m, inside, rfl⟩ := List.mem_iff_getElem.1 hj
  obtain ⟨inside', rfl⟩ := List.getElem?_eq_some_iff.1 at_k
  have before : m < k := (pairwise_candidates b).sortedLT.getElem_lt_getElem_iff.1 earlier
  refine UInt64.lt_iff_toNat_lt.1 (first _ (List.mem_of_getElem? (i := m) ?_))
  rw [List.getElem?_take_of_lt before, List.getElem?_map, List.getElem?_eq_getElem inside]
  rfl

theorem strategy_route (least : b.strategy = .leastConnections) :
    b.route.2.strategy = .leastConnections := by
  obtain ⟨strategies, current⟩ := strategies_route b
  have same : b.strategies.set b.current .leastConnections = b.route.2.strategies := by
    rw [strategies, least]
    rfl
  rw [strategy, current, ← same, List.getElem?_set_self']
  cases b.strategies[b.current]? <;> rfl

/-- The server that gets the request has one more, as a word of 64 bits. -/
theorem load_route (b : Balancer) (j : Nat) :
    b.route.2.load j = if b.route.1 = some j then b.load j + 1 else b.load j := by
  obtain ⟨-, none, same⟩ | ⟨k, i, -, at_k, some, changed⟩ := route_cases b
  · rw [none, if_neg nofun, load, same, load]
  · obtain ⟨s, there, -⟩ := mem_candidates.1 (List.mem_of_getElem? at_k)
    rw [some, load, changed, List.getElem?_modify, load]
    by_cases own : i = j
    · subst own
      simp [there, Server.connected]
    · simp [own]

/-- A request finds a server if there are candidates. -/
theorem exists_of_route (some : b.candidates ≠ []) : ∃ i ∈ b.candidates, b.route.1 = .some i := by
  obtain ⟨none, -⟩ | ⟨k, i, -, at_k, routed, -⟩ := route_cases b
  · exact absurd none some
  · exact ⟨i, List.mem_of_getElem? at_k, routed⟩

/-! ## Several requests -/

/-- Routes `n` requests: who got them, and the balancer afterwards. -/
def routes (b : Balancer) : Nat → List (Option Nat) × Balancer
  | 0 => ([], b)
  | n + 1 => ((b.routes n).1 ++ [(b.routes n).2.route.1], (b.routes n).2.route.2)

/-- How many of `n` requests go to the server at position `i`. -/
def got (b : Balancer) (n i : Nat) : Nat := (b.routes n).1.count (some i)

/-- Whether `n` requests are spread over the candidates, so many to each. -/
def Spreads (b : Balancer) (n : Nat) (more : Nat → Nat) : Prop :=
  ∑ i ∈ b.candidates.toFinset, more i = n

/-- The largest of the candidates' counts. -/
def peak (b : Balancer) (count : Nat → Nat) : Nat := b.candidates.toFinset.sup count

theorem got_succ (b : Balancer) (n i : Nat) :
    b.got (n + 1) i = b.got n i + if (b.routes n).2.route.1 = some i then 1 else 0 := by
  rw [got, routes, List.count_append, List.count_singleton, got]
  simp only [beq_iff_eq]

/-- The strategy stays in force, and the candidates stay candidates. -/
theorem kept_routes (least : b.strategy = .leastConnections) (n : Nat) :
    (b.routes n).2.strategy = .leastConnections ∧ (b.routes n).2.candidates = b.candidates := by
  induction n with
  | zero => exact ⟨least, rfl⟩
  | succ n ih => exact ⟨strategy_route ih.1, (candidates_route _).trans ih.2⟩

variable {got d : Nat → Nat}

/-- What the counts are after `n` requests, so many to each. -/
structure Filled (b : Balancer) (n : Nat) (got : Nat → Nat) (b' : Balancer) : Prop where
  load : ∀ i, (b'.load i).toNat = (b.load i).toNat + got i
  even : ∀ i ∈ b.candidates, 0 < got i → ∀ j ∈ b.candidates,
    (b'.load i).toNat ≤ (b'.load j).toNat + 1
  spread : b.candidates ≠ [] → b.Spreads n got

/-- **One more request** keeps the counts even: the candidate that gets it has the fewest, so it is
at most one above another one afterwards. -/
theorem Filled.route (h : Filled b n got b') (least : b'.strategy = .leastConnections)
    (same : b'.candidates = b.candidates)
    (room : ∀ i, b'.route.1 = some i → (b'.load i).toNat + 1 < UInt64.size) :
    Filled b (n + 1) (fun i => got i + if b'.route.1 = some i then 1 else 0) b'.route.2 := by
  have load : ∀ i, (b'.route.2.load i).toNat =
      (b'.load i).toNat + if b'.route.1 = some i then 1 else 0 := by
    intro i
    rw [load_route]
    split
    · next routed =>
      rw [UInt64.toNat_add]
      exact Nat.mod_eq_of_lt (room i routed)
    · rfl
  refine ⟨fun i => ?_, fun i hi some j hj => ?_, fun there => ?_⟩
  · rw [load, h.load, Nat.add_assoc]
  · rw [load, load]
    by_cases routed : b'.route.1 = .some i
    · have lowest := ((least_of_route least routed).2 j (same ▸ hj)).1
      rw [if_pos routed]
      omega
    · rw [if_neg routed] at some ⊢
      have := h.even i hi some j hj
      omega
  · obtain ⟨i, hi, routed⟩ := exists_of_route (same ▸ there)
    have one : ∑ j ∈ b.candidates.toFinset, (if b'.route.1 = some j then 1 else 0) = 1 := by
      simp only [routed, Option.some_inj]
      rw [sum_ite_eq, if_pos (List.mem_toFinset.2 (same ▸ hi))]
    rw [Spreads, sum_add_distrib, one, h.spread there]

/-- **A row of requests** keeps the counts even. -/
theorem filled_routes (least : b.strategy = .leastConnections) {n : Nat}
    (room : ∀ i ∈ b.candidates, (b.load i).toNat + b.got n i < UInt64.size) :
    Filled b n (b.got n) (b.routes n).2 := by
  induction n with
  | zero => exact ⟨fun _ => rfl, fun _ _ some => absurd some (Nat.lt_irrefl 0),
      fun _ => sum_const_zero⟩
  | succ n ih =>
    simp only [got_succ, ← Nat.add_assoc] at room
    have h := ih fun i hi => Nat.lt_of_le_of_lt (Nat.le_add_right ..) (room i hi)
    obtain ⟨still, same⟩ := kept_routes least n
    have more : ∀ i, (b.routes n).2.route.1 = some i →
        ((b.routes n).2.load i).toNat + 1 < UInt64.size := by
      intro i routed
      have fits := room i (same ▸ (least_of_route still routed).1)
      rw [if_pos routed, ← h.load] at fits
      exact fits
    rw [funext (got_succ b n)]
    exact h.route still same more

/-- **The peak is smallest by exchange.** If the peak could be lower, the servers would get at most
what they got, and one of them less. -/
theorem peak_le_of_even {count : Nat → Nat} (spread : b.Spreads n got) (other : b.Spreads n d)
    (even : ∀ i ∈ b.candidates, 0 < got i → ∀ j ∈ b.candidates,
      count i + got i ≤ count j + got j + 1) :
    (b.peak fun i => count i + got i) ≤ b.peak fun i => count i + d i := by
  refine Finset.sup_le fun i hi => ?_
  by_contra! lower
  have below : ∀ j ∈ b.candidates.toFinset, count j + d j < count i + got i := fun j hj =>
    Nat.lt_of_le_of_lt (le_sup (f := fun j => count j + d j) hj) lower
  have own := below i hi
  have fewer : ∑ j ∈ b.candidates.toFinset, d j < ∑ j ∈ b.candidates.toFinset, got j := by
    refine sum_lt_sum (fun j hj => ?_) ⟨i, hi, by omega⟩
    have := even i (List.mem_toFinset.1 hi) (by omega) j (List.mem_toFinset.1 hj)
    have := below j hj
    omega
  rw [spread, other] at fewer
  exact Nat.lt_irrefl n fewer

/-- **Least connections fills evenly.** Let `n` requests be routed one after the other, from counts
of any size, such that no candidate gets more requests than its count can hold. Health stays as it
is. Each server then counts what it got on top of what it had. A candidate that got a request counts
at most one more than every other one. If there are candidates all requests are spread over them,
and there is no way to spread them with a lower peak. Each request goes to a candidate that has the
fewest at that time, and to the earliest of several. -/
theorem fills_evenly (least : b.strategy = .leastConnections) (n : Nat)
    (room : ∀ i ∈ b.candidates, (b.load i).toNat + b.got n i < UInt64.size) :
    let b' := (b.routes n).2
    b'.candidates = b.candidates ∧
    (∀ i, (b'.load i).toNat = (b.load i).toNat + b.got n i) ∧
    (∀ i ∈ b.candidates, 0 < b.got n i → ∀ j ∈ b.candidates,
      (b'.load i).toNat ≤ (b'.load j).toNat + 1) ∧
    (b.candidates ≠ [] → b.Spreads n (b.got n) ∧ ∀ d, b.Spreads n d →
      (b.peak fun i => (b'.load i).toNat) ≤ b.peak fun i => (b.load i).toNat + d i) ∧
    ∀ k, let now := (b.routes k).2
      ∀ i, now.route.1 = some i → i ∈ b.candidates ∧ ∀ j ∈ b.candidates,
        (now.load i).toNat ≤ (now.load j).toNat ∧
          (j < i → (now.load i).toNat < (now.load j).toNat) := by
  intro b'
  have h : Filled b n (b.got n) b' := filled_routes least room
  refine ⟨(kept_routes least n).2, h.load, h.even, fun some => ⟨h.spread some, fun d other => ?_⟩,
    fun k => ?_⟩
  · simp only [h.load]
    refine peak_le_of_even (h.spread some) other fun i hi more j hj => ?_
    rw [← h.load, ← h.load]
    exact h.even i hi more j hj
  · intro now i routed
    obtain ⟨still, same⟩ := kept_routes least k
    rw [← same]
    exact least_of_route still routed

/-- Three servers that take requests, with three, none and one, and four requests. -/
theorem fills_evenly_above_three :
    let b : Balancer :=
      ⟨[⟨"S1", "a", 3, true, true⟩, ⟨"S2", "b", 0, true, true⟩, ⟨"S3", "c", 0, false, true⟩,
          ⟨"S4", "d", 1, true, true⟩],
        [.leastConnections], 0, Metrics.empty⟩
    (b.strategy = .leastConnections ∧
      ∀ i ∈ b.candidates, (b.load i).toNat + b.got 4 i < UInt64.size) ∧
    (b.routes 4).2.fleet.map Server.active = [3, 3, 0, 2] ∧
    ∀ d, b.Spreads 4 d →
      (b.peak fun i => ((b.routes 4).2.load i).toNat) ≤ b.peak fun i => (b.load i).toNat + d i := by
  intro b
  have least : b.strategy = .leastConnections := rfl
  have room : ∀ i ∈ b.candidates, (b.load i).toNat + b.got 4 i < UInt64.size := by decide
  obtain ⟨-, -, -, lowest, -⟩ := fills_evenly least 4 room
  exact ⟨⟨least, room⟩, by decide, (lowest (by decide)).2⟩

end Balancer

end Tenure
