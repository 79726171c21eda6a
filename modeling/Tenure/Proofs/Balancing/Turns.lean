import Mathlib.Data.List.Count
import Mathlib.Data.List.Rotate
import Tenure.Proofs.Balancing.Routing

/-!
# Round robin takes turns

Under round robin the requests go round the healthy servers in the order in which these joined,
starting wherever the cursor was left (`Balancer.takes_turns`). Completions and whatever else leaves
the healthy servers and the strategy as they are may happen in between.

The cursor is a word of 64 bits that counts on, so the `t`-th value of it picks the server at place
`t % k` of the `k` healthy ones (`Balancer.routed_eq_turns`). A window of `k` such picks is the list
of healthy servers, begun at another place (`turns_eq_rotate`), and a longer row is one window after
the other (`count_turns`).
-/

namespace Tenure

/-! ## Going round a list -/

section Turns

variable {α : Type} {l : List α} {c m n : Nat}

/-- What a cursor that starts at `c` picks from a list in `n` turns. -/
def turns (l : List α) (c n : Nat) : List (Option α) :=
  (List.range' c n).map fun t => l[t % l.length]?

@[simp] theorem turns_zero (l : List α) (c : Nat) : turns l c 0 = [] := rfl

theorem turns_succ (l : List α) (c n : Nat) :
    turns l c (n + 1) = l[c % l.length]? :: turns l (c + 1) n := rfl

@[simp] theorem length_turns (l : List α) (c n : Nat) : (turns l c n).length = n := by
  rw [turns, List.length_map, List.length_range']

theorem turns_add (l : List α) (c m n : Nat) :
    turns l c (m + n) = turns l c m ++ turns l (c + m) n := by
  rw [turns, turns, turns, ← List.map_append, List.range'_append_1]

/-- **As many turns as there are entries** are the list itself, begun where the cursor is. -/
theorem turns_eq_rotate (l : List α) (c : Nat) : turns l c l.length = (l.rotate c).map some := by
  refine List.ext_getElem (by simp) fun j inside inside' => ?_
  have here : (c + j) % l.length < l.length :=
    Nat.mod_lt _ (Nat.zero_lt_of_lt (by simpa using inside))
  simp only [turns, List.getElem_map, List.getElem_range', List.getElem_rotate, Nat.one_mul,
    List.getElem?_eq_getElem here, Nat.add_comm]

/-- A part of a row of turns is a row of turns. -/
theorem take_drop_turns (inside : m + n ≤ k) (l : List α) (c : Nat) :
    ((turns l c k).drop m).take n = turns l (c + m) n := by
  obtain ⟨rest, rfl⟩ := Nat.exists_eq_add_of_le inside
  rw [Nat.add_assoc, turns_add, turns_add, List.drop_left' (length_turns ..),
    List.take_left' (length_turns ..)]

variable [DecidableEq α] {x : α}

/-- In a round every entry has its turn once. -/
theorem count_turns_round (nodup : l.Nodup) (there : x ∈ l) (c : Nat) :
    (turns l c l.length).count (some x) = 1 := by
  rw [turns_eq_rotate, List.count_map_of_injective _ _ (Option.some_injective α),
    (l.rotate_perm c).count_eq, List.count_eq_one_of_mem nodup there]

/-- **Everybody's share.** An entry has as many turns as there are full rounds, or one more. -/
theorem count_turns (nodup : l.Nodup) (there : x ∈ l) (c n : Nat) :
    n / l.length ≤ (turns l c n).count (some x) ∧
      (turns l c n).count (some x) ≤ n / l.length + 1 := by
  have round := fun c => count_turns_round nodup there c
  have size : 0 < l.length := List.length_pos_of_mem there
  induction n using Nat.strongRecOn generalizing c with
  | ind n ih =>
    by_cases short : n < l.length
    · -- less than a round is the beginning of one
      rw [Nat.div_eq_of_lt short]
      refine ⟨Nat.zero_le _, ?_⟩
      rw [Nat.zero_add, ← round c, ← Nat.add_sub_of_le (Nat.le_of_lt short), turns_add,
        List.count_append]
      exact Nat.le_add_right ..
    · obtain ⟨rest, rfl⟩ := Nat.exists_eq_add_of_le (Nat.le_of_not_lt short)
      obtain ⟨least, most⟩ := ih rest (Nat.lt_add_of_pos_left size) (c + l.length)
      rw [turns_add, List.count_append, round, Nat.add_comm l.length, Nat.add_div_right _ size]
      omega

end Turns

namespace Balancer

variable {b : Balancer} {c : UInt64} {a : Act} {acts : List Act}

/-! ## The cursor -/

/-- Whether an act puts a strategy in force. -/
def Act.installs : Act → Bool
  | setStrategy _ => true
  | reuseStrategy _ => true
  | _ => false

/-- Whether an act is a request, a completion, or anything else that leaves the strategy and the
candidates as they are. -/
def Spares (b : Balancer) (a : Act) : Prop :=
  a = .route ∨ (∃ id, a = .complete id) ∨
    a.installs = false ∧ (b.next a).candidates = b.candidates

/-- Whether every act of a row does. -/
def Steady (b : Balancer) : List Act → Prop
  | [] => True
  | a :: acts => b.Spares a ∧ (b.next a).Steady acts

/-- The servers that get the requests among the acts of a row, by position in the fleet. -/
def routed (b : Balancer) : List Act → List (Option Nat)
  | [] => []
  | .route :: acts => b.route.1 :: (b.next .route).routed acts
  | a :: acts => (b.next a).routed acts

theorem routed_cons_of_ne (quiet : a ≠ .route) (b : Balancer) (acts : List Act) :
    b.routed (a :: acts) = (b.next a).routed acts := by
  cases a with
  | route => exact absurd rfl quiet
  | _ => rfl

/-- Completing changes nobody's health. -/
theorem candidates_next_complete (b : Balancer) (id : String) :
    (b.next (.complete id)).candidates = b.candidates := by
  rw [next, perform, complete, update]
  split
  · rfl
  · refine candidates_modify rfl fun s => ?_
    split <;> exact ⟨rfl, rfl⟩

theorem Spares.candidates_next (spares : b.Spares a) : (b.next a).candidates = b.candidates := by
  obtain rfl | ⟨id, rfl⟩ | ⟨-, same⟩ := spares
  · exact candidates_route b
  · exact candidates_next_complete b id
  · exact same

theorem strategy_settled_update (b : Balancer) (id : String) (f : Server → Server) :
    (b.settled (b.update id f)).2.strategy = b.strategy := by
  rw [update]
  split <;> rfl

/-- An act that routes nothing and puts no strategy in force leaves the cursor where it is. -/
theorem strategy_next_of_quiet (quiet : a ≠ .route) (same : a.installs = false) :
    (b.next a).strategy = b.strategy := by
  cases a with
  | add id address =>
    rw [next, perform_add]
    split <;> rfl
  | remove id => exact strategy_settled_update b id _
  | setHealthy id healthy => exact strategy_settled_update b id _
  | complete id => exact strategy_settled_update b id _
  | setStrategy s => cases same
  | reuseStrategy number => cases same
  | route => exact absurd rfl quiet

theorem Spares.strategy_next (spares : b.Spares a) (quiet : a ≠ .route) :
    (b.next a).strategy = b.strategy := by
  refine strategy_next_of_quiet quiet ?_
  obtain rfl | ⟨id, rfl⟩ | ⟨same, -⟩ := spares
  · exact absurd rfl quiet
  · rfl
  · exact same

/-- **A request moves the cursor on** and goes to the candidate at the cursor's place. -/
theorem route_of_roundRobin (robin : b.strategy = .roundRobin c) (some : b.candidates ≠ []) :
    b.route.1 = b.candidates[c.toNat % b.candidates.length]? ∧
      b.route.2.strategy = .roundRobin (c + 1) := by
  have picked : b.strategy.select (b.candidates.map b.load) =
      (.some (c.toNat % b.candidates.length), .roundRobin (c + 1)) := by
    rw [robin, Strategy.select, if_neg (by simpa using some), List.length_map]
  constructor
  · obtain ⟨none, -⟩ | ⟨k, i, pick, at_k, routed, -⟩ := route_cases b
    · exact absurd none some
    · rw [picked] at pick
      cases pick
      rw [routed, at_k]
  · obtain ⟨strategies, current⟩ := strategies_route b
    have inside : b.current < b.strategies.length := by
      by_contra outside
      rw [strategy, List.getElem?_eq_none (Nat.le_of_not_lt outside)] at robin
      cases robin
    rw [strategy, strategies, current, picked, List.getElem?_set_self inside]
    rfl

/-- **Requests come by turns**, as long as the candidates and the strategy stay and the cursor does
not run over the end of its word. -/
theorem routed_eq_turns (robin : b.strategy = .roundRobin c) (steady : b.Steady acts)
    (some : b.candidates ≠ []) (room : c.toNat + acts.count .route ≤ UInt64.size) :
    b.routed acts = turns b.candidates c.toNat (acts.count .route) := by
  induction acts generalizing b c with
  | nil => rfl
  | cons a acts ih =>
    obtain ⟨spares, steady⟩ := steady
    have still : (b.next a).candidates = b.candidates := spares.candidates_next
    have go : ∀ {c : UInt64}, (b.next a).strategy = .roundRobin c →
        c.toNat + acts.count .route ≤ UInt64.size →
        (b.next a).routed acts = turns b.candidates c.toNat (acts.count .route) :=
      fun robin room => still ▸ ih robin steady (still ▸ some) room
    by_cases routes : a = .route
    · subst routes
      obtain ⟨first, moved⟩ := route_of_roundRobin robin some
      rw [List.count_cons_self] at room ⊢
      rw [turns_succ, routed, first]
      refine congrArg _ ?_
      by_cases last : acts.count .route = 0
      · rw [go moved (last ▸ Nat.le_of_lt (c + 1).toNat_lt), last, turns_zero, turns_zero]
      · -- further requests follow, so the cursor has room for one more
        have next : (c + 1).toNat = c.toNat + 1 := by
          rw [UInt64.toNat_add]
          exact Nat.mod_eq_of_lt (show c.toNat + 1 < UInt64.size by omega)
        rw [go moved (by omega), next]
    · rw [List.count_cons_of_ne routes] at room ⊢
      rw [routed_cons_of_ne routes, go ((spares.strategy_next routes).trans robin) room]

/-- **Round robin takes turns.** Let `n` requests be routed under round robin, from a cursor of any
value that has room for `n` more, while some servers are registered and healthy and stay the only
ones; others may be anywhere among them, and completions may happen in between. The requests then go
round the healthy servers in the order in which these joined, from the place that the cursor has.
Any window of as many requests as there are healthy servers is their list, begun at some place, so
that each of them gets one of these requests. Over all each gets its full rounds or one request
more, so that no two differ by more than one. -/
theorem takes_turns (robin : b.strategy = .roundRobin c) (acts : List Act)
    (steady : b.Steady acts) (some : b.candidates ≠ [])
    (room : c.toNat + acts.count .route ≤ UInt64.size) :
    let n := acts.count .route
    let k := b.candidates.length
    (b.candidates.Pairwise (· < ·) ∧ ∀ i, i ∈ b.candidates ↔
      ∃ s, b.fleet[i]? = .some s ∧ s.registered = true ∧ s.healthy = true) ∧
    (b.routed acts).length = n ∧
    (∀ m < n, (b.routed acts)[m]? = .some b.candidates[(c.toNat + m) % k]?) ∧
    (∀ m, m + k ≤ n →
      ((b.routed acts).drop m).take k = (b.candidates.rotate (c.toNat + m)).map .some ∧
      ∀ i ∈ b.candidates, (((b.routed acts).drop m).take k).count (.some i) = 1) ∧
    (∀ i ∈ b.candidates, n / k ≤ (b.routed acts).count (.some i) ∧
      (b.routed acts).count (.some i) ≤ n / k + 1) ∧
    ∀ i ∈ b.candidates, ∀ j ∈ b.candidates,
      (b.routed acts).count (.some i) ≤ (b.routed acts).count (.some j) + 1 := by
  intro n k
  have nodup : b.candidates.Nodup := (pairwise_candidates b).imp Nat.ne_of_lt
  rw [routed_eq_turns robin steady some room]
  have share := fun i hi => count_turns (x := i) nodup hi c.toNat n
  refine ⟨⟨pairwise_candidates b, fun i => mem_candidates⟩, length_turns .., fun m hm => ?_,
    fun m hm => ?_, share, fun i hi j hj => ?_⟩
  · rw [turns, List.getElem?_map, List.getElem?_range' hm, Nat.one_mul]
    rfl
  · rw [take_drop_turns hm, turns_eq_rotate]
    refine ⟨rfl, fun i hi => ?_⟩
    rw [← turns_eq_rotate, count_turns_round nodup hi]
  · exact Nat.le_trans (share i hi).2 (Nat.add_le_add_right (share j hj).1 1)

/-- Two healthy servers with one that is down between them, a cursor just before the end of its
word, and a completion between three requests. -/
theorem takes_turns_of_two :
    let b : Balancer :=
      ⟨[⟨"S1", "a", 0, true, true⟩, ⟨"S2", "b", 0, false, true⟩, ⟨"S3", "c", 5, true, true⟩],
        [.roundRobin 0xfffffffffffffffd], 0, Metrics.empty⟩
    let acts : List Act := [.route, .complete "S3", .route, .setHealthy "S2" false, .route]
    (b.strategy = .roundRobin 0xfffffffffffffffd ∧ b.Steady acts ∧ b.candidates ≠ [] ∧
      (0xfffffffffffffffd : UInt64).toNat + acts.count .route ≤ UInt64.size) ∧
    b.routed acts = [some 2, some 0, some 2] ∧
    ∀ i ∈ b.candidates, ∀ j ∈ b.candidates,
      (b.routed acts).count (some i) ≤ (b.routed acts).count (some j) + 1 := by
  intro b acts
  have robin : b.strategy = .roundRobin 0xfffffffffffffffd := rfl
  have steady : b.Steady acts :=
    ⟨.inl rfl, .inr (.inl ⟨_, rfl⟩), .inl rfl, .inr (.inr ⟨rfl, by decide⟩), .inl rfl, trivial⟩
  have healthy : b.candidates ≠ [] := by decide
  have room : (0xfffffffffffffffd : UInt64).toNat + acts.count .route ≤ UInt64.size := by decide
  obtain ⟨-, -, -, -, -, even⟩ := takes_turns robin acts steady healthy room
  exact ⟨⟨robin, steady, healthy, room⟩, by decide, even⟩

end Balancer

end Tenure
