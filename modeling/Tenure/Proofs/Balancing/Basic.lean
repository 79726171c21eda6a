import Mathlib.Data.List.Nodup
import Mathlib.Data.List.Sort
import Tenure.Balancer

/-!
# The fleet of a balancer

No two registered servers are to have the same name (`Balancer.Distinct`), so that an operation on a
name changes the one server that goes by it and no other (`Balancer.update_eq`). A request goes to
one of the candidates, who are registered and healthy, and changes no server but that one
(`Balancer.route_cases`).

A server keeps its position in the fleet for good, also when it is taken out, so the position tells
it from a later server of the same name.
-/

namespace Tenure

/-! ## Servers -/

namespace Server

/-- Whether the server goes by this name at the balancer. -/
def named (id : String) (s : Server) : Bool := s.registered && s.id == id

/-- The name by which it goes at the balancer. -/
def tag (s : Server) : Option String := if s.registered then some s.id else none

/-- With one more request. -/
def connected (s : Server) : Server := { s with active := s.active + 1 }

/-- With one request less, if it has any. -/
def released (s : Server) : Server := if s.active = 0 then s else { s with active := s.active - 1 }

/-- Releasing takes one request away where there is one. -/
theorem toNat_released (s : Server) : s.released.active.toNat = s.active.toNat - 1 := by
  rw [released]
  split
  · next none => rw [none]; rfl
  · next some =>
    have one : 1 ≤ s.active := UInt64.le_iff_toNat_le.2
      (Nat.one_le_iff_ne_zero.2 fun none => some (UInt64.toNat_inj.1 none))
    exact UInt64.toNat_sub_of_le _ _ one

/-- Nothing else about the server changes. -/
theorem released_eq (s : Server) :
    s.released = { s with active := UInt64.ofNat (s.active.toNat - 1) } := by
  rw [← toNat_released, UInt64.ofNat_toNat, released]
  split <;> rfl

/-- Taken out. -/
def retired (s : Server) : Server := { s with registered := false }

/-- Counted as healthy, or as down. -/
def marked (healthy : Bool) (s : Server) : Server := { s with healthy := healthy }

/-- Changed if it goes by this name. -/
def on (id : String) (f : Server → Server) (s : Server) : Server := if s.named id then f s else s

variable {s : Server} {id : String}

/-- What holds of the server changed and unchanged. -/
theorem on_cases {motive : Server → Prop} {f : Server → Server} (own : motive (f s))
    (other : motive s) (id : String) : motive (s.on id f) := by
  rw [on]
  split
  · exact own
  · exact other

theorem named_iff : s.named id = true ↔ s.registered = true ∧ s.id = id := by simp [named]

theorem tag_eq_some_iff : s.tag = some id ↔ s.named id = true := by simp [tag, named_iff]

@[simp] theorem tag_connected (s : Server) : s.connected.tag = s.tag := rfl

@[simp] theorem tag_released (s : Server) : s.released.tag = s.tag := by
  rw [released]
  split <;> rfl

@[simp] theorem tag_marked (healthy : Bool) (s : Server) : (s.marked healthy).tag = s.tag := rfl

/-- A change that keeps the name keeps all names. -/
theorem tag_on {f : Server → Server} (same : ∀ s, (f s).tag = s.tag) (id : String) (s : Server) :
    (s.on id f).tag = s.tag :=
  on_cases (motive := fun t => t.tag = s.tag) (same s) rfl id

theorem tag_on_retired (id : String) (s : Server) :
    (s.on id retired).tag = if s.tag = some id then none else s.tag := by
  rw [on]
  simp only [tag_eq_some_iff]
  split
  · rfl
  · rfl

end Server

/-! ## Changing one entry of a list -/

section Lists

variable {α β : Type} {l : List α} {i : Nat}

/-- To change an entry is to put the changed one in its place. -/
theorem modify_eq_set_of {x : α} (there : l[i]? = some x) (f : α → α) :
    l.modify i f = l.set i (f x) := by
  rw [List.modify_eq_set_getElem?, there]
  rfl

/-- A change that a view does not show. -/
theorem map_modify_of {f : α → α} {g : α → β} (same : ∀ x, g (f x) = g x) (l : List α) (i : Nat) :
    (l.modify i f).map g = l.map g := by
  refine List.ext_getElem? fun j => ?_
  rw [List.getElem?_map, List.getElem?_map, List.getElem?_modify]
  cases l[j]? with
  | none => rfl
  | some x =>
    by_cases h : i = j
    · simp [h, same]
    · simp [h]

end Lists

namespace Balancer

variable {b : Balancer} {id address : String} {f : Server → Server} {i j : Nat} {s t : Server}

/-! ## Names -/

/-- The names of the registered servers, in order of addition. -/
def names (b : Balancer) : List String := b.servers.map Server.id

/-- The names can be told from the tags alone. -/
theorem names_eq (b : Balancer) : b.names = b.fleet.filterMap Server.tag := by
  rw [names, servers]
  induction b.fleet with
  | nil => rfl
  | cons s fleet ih => cases h : s.registered <;> simp [Server.tag, h, ← ih]

/-- No two registered servers have the same name. -/
def Distinct (b : Balancer) : Prop := b.names.Nodup

theorem mem_names : id ∈ b.names ↔ ∃ s ∈ b.fleet, s.named id = true := by
  simp only [names, servers, List.mem_map, List.mem_filter, Server.named_iff]
  exact exists_congr fun s => and_assoc

theorem position?_eq_none_iff : b.position? id = none ↔ id ∉ b.names := by
  rw [mem_names, position?, List.findIdx?_eq_none_iff]
  simp [Server.named]

theorem mem_names_of_position? (found : b.position? id = some i) : id ∈ b.names := by
  by_contra unknown
  rw [position?_eq_none_iff.2 unknown] at found
  cases found

/-- **A name tells the position** of the server that goes by it. -/
theorem Distinct.unique (distinct : b.Distinct) (hi : b.fleet[i]? = some s)
    (hj : b.fleet[j]? = some t) (named : s.named id = true) (named' : t.named id = true) :
    i = j := by
  have apart : b.fleet.Pairwise fun x y =>
      ∀ n, x.tag = some n → ∀ n', y.tag = some n' → n ≠ n' := by
    rw [← List.pairwise_filterMap, ← names_eq]
    exact distinct
  rw [List.pairwise_iff_getElem] at apart
  obtain ⟨inside, rfl⟩ := List.getElem?_eq_some_iff.1 hi
  obtain ⟨inside', rfl⟩ := List.getElem?_eq_some_iff.1 hj
  rw [← Server.tag_eq_some_iff] at named named'
  rcases Nat.lt_trichotomy i j with lt | eq | gt
  · exact absurd rfl (apart i j inside inside' lt id named id named')
  · exact eq
  · exact absurd rfl (apart j i inside' inside gt id named' id named)

theorem position?_eq_some_iff (distinct : b.Distinct) (there : b.fleet[i]? = some s)
    (id : String) : b.position? id = some i ↔ s.named id = true := by
  have sound : ∀ {k t}, b.position? id = some k → b.fleet[k]? = some t → t.named id = true := by
    intro k t found at_k
    obtain ⟨inside, named, -⟩ := List.findIdx?_eq_some_iff_getElem.1 found
    cases (List.getElem?_eq_getElem inside).symm.trans at_k
    exact named
  refine ⟨fun found => sound found there, fun named => ?_⟩
  cases found : b.position? id with
  | none =>
    have unknown := position?_eq_none_iff.1 found
    exact absurd (mem_names.2 ⟨s, List.mem_of_getElem? there, named⟩) unknown
  | some k =>
    obtain ⟨inside, -⟩ := List.findIdx?_eq_some_iff_getElem.1 found
    have at_k := List.getElem?_eq_getElem inside
    rw [distinct.unique at_k there (sound found at_k) named]

/-- **An operation on a name** changes the server that goes by it, or is refused. -/
theorem update_eq (distinct : b.Distinct) (id : String) (f : Server → Server) :
    b.update id f =
      if id ∈ b.names then .ok { b with fleet := b.fleet.map (Server.on id f) }
      else .error (.unknownServer id) := by
  rw [update]
  cases found : b.position? id with
  | none => rw [if_neg (position?_eq_none_iff.1 found)]
  | some i =>
    have changed : b.fleet.modify i f = b.fleet.map (Server.on id f) := by
      refine List.ext_getElem? fun j => ?_
      rw [List.getElem?_modify, List.getElem?_map]
      cases there : b.fleet[j]? with
      | none => rfl
      | some s =>
        have own := position?_eq_some_iff distinct there id
        rw [found, Option.some_inj] at own
        simp only [own, Option.map_eq_map, Option.map_some, Server.on]
    simp only [if_pos (mem_names_of_position? found), changed]

theorem addServer_eq (b : Balancer) (id address : String) :
    b.addServer id address =
      if id ∈ b.names then .error (.duplicateServer id)
      else .ok (⟨id, address, 0, true, true⟩,
        { b with fleet := b.fleet ++ [⟨id, address, 0, true, true⟩] }) := by
  rw [addServer]
  cases found : b.position? id with
  | none => rw [if_neg (position?_eq_none_iff.1 found)]
  | some i => rw [if_pos (mem_names_of_position? found)]

/-! ## Routing -/

/-- The candidates are the registered servers that are healthy. -/
theorem mem_candidates : i ∈ b.candidates ↔
    ∃ s, b.fleet[i]? = some s ∧ s.registered = true ∧ s.healthy = true := by
  simp only [candidates, List.mem_map, List.mem_filter, Prod.exists, Bool.and_eq_true,
    List.mk_mem_zipIdx_iff_getElem?]
  constructor
  · rintro ⟨s, j, ⟨there, fit⟩, rfl⟩
    exact ⟨s, there, fit⟩
  · rintro ⟨s, there, fit⟩
    exact ⟨s, i, ⟨there, fit⟩, rfl⟩

/-- There are none if every registered server is down. -/
theorem candidates_eq_nil_iff : b.candidates = [] ↔ ∀ s ∈ b.servers, s.healthy = false := by
  rw [List.eq_nil_iff_forall_not_mem]
  constructor
  · intro none s hs
    obtain ⟨there, registered⟩ := List.mem_filter.1 hs
    obtain ⟨i, at_i⟩ := List.mem_iff_getElem?.1 there
    exact Bool.eq_false_iff.2 fun healthy =>
      none i (mem_candidates.2 ⟨s, at_i, registered, healthy⟩)
  · intro down i hi
    obtain ⟨s, there, registered, healthy⟩ := mem_candidates.1 hi
    have out := down s (List.mem_filter.2 ⟨List.mem_of_getElem? there, registered⟩)
    rw [healthy] at out
    cases out

/-- They are in order of addition. -/
theorem pairwise_candidates (b : Balancer) : b.candidates.Pairwise (· < ·) := by
  have all : (b.fleet.zipIdx.map Prod.snd).Pairwise (· < ·) := by
    rw [List.zipIdx_map_snd]
    exact List.pairwise_lt_range'
  exact all.sublist (List.Sublist.map _ List.filter_sublist)

/-- A change of a server that leaves it registered and healthy, or not, leaves the candidates. -/
theorem candidates_modify {b' : Balancer} (changed : b'.fleet = b.fleet.modify i f)
    (same : ∀ s, (f s).registered = s.registered ∧ (f s).healthy = s.healthy) :
    b'.candidates = b.candidates := by
  refine List.Pairwise.eq_of_mem_iff (pairwise_candidates _) (pairwise_candidates _) fun j => ?_
  rw [mem_candidates, mem_candidates, changed, List.getElem?_modify]
  cases b.fleet[j]? with
  | none => simp
  | some s => by_cases own : i = j <;> simp [own, same]

/-- **A request is routed** to the candidate that the strategy picks, and nothing about the fleet
changes but that this one has one request more. Without candidates nothing changes in the fleet. -/
theorem route_cases (b : Balancer) :
    (b.candidates = [] ∧ b.route.1 = none ∧ b.route.2.fleet = b.fleet) ∨
    ∃ k i, (b.strategy.select (b.candidates.map b.load)).1 = some k ∧ b.candidates[k]? = some i ∧
      b.route.1 = some i ∧ b.route.2.fleet = b.fleet.modify i Server.connected := by
  cases picked : (b.strategy.select (b.candidates.map b.load)).1 with
  | none =>
    have empty := List.map_eq_nil_iff.1 (Strategy.select_eq_none_iff.1 picked)
    refine .inl ⟨empty, ?_⟩
    simp [route, picked]
  | some k =>
    have inside := Strategy.lt_of_select picked
    rw [List.length_map] at inside
    have there := List.getElem?_eq_getElem inside
    refine .inr ⟨k, _, rfl, there, ?_⟩
    simp only [route, picked, Option.bind_some, there, true_and]
    rfl

/-- Routing changes nobody's health. -/
theorem candidates_route (b : Balancer) : b.route.2.candidates = b.candidates := by
  obtain ⟨-, -, same⟩ | ⟨k, i, -, -, -, changed⟩ := route_cases b
  · rw [candidates, same, candidates]
  · exact candidates_modify changed fun s => ⟨rfl, rfl⟩

/-- The strategy in force goes on as its pick leaves it. -/
theorem strategies_route (b : Balancer) :
    b.route.2.strategies =
        b.strategies.set b.current (b.strategy.select (b.candidates.map b.load)).2 ∧
      b.route.2.current = b.current := by
  simp only [route]
  split <;> exact ⟨rfl, rfl⟩

theorem names_of_tags {b' : Balancer} (same : b'.fleet.map Server.tag = b.fleet.map Server.tag) :
    b'.names = b.names := by
  rw [names_eq, names_eq, ← Function.id_comp Server.tag, ← List.filterMap_map, same,
    List.filterMap_map]

theorem map_tag_on (same : ∀ s, (f s).tag = s.tag) (id : String) (fleet : List Server) :
    (fleet.map (Server.on id f)).map Server.tag = fleet.map Server.tag := by
  rw [List.map_map]
  exact List.map_congr_left fun s _ => Server.tag_on same id s

theorem names_route (b : Balancer) : b.route.2.names = b.names := by
  refine names_of_tags ?_
  obtain ⟨-, -, same⟩ | ⟨k, i, -, -, -, changed⟩ := route_cases b
  · rw [same]
  · rw [changed, map_modify_of Server.tag_connected]

end Balancer

end Tenure
