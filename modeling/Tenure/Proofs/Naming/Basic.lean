import Tenure.Proofs.Alike
import Tenure.Proofs.Deadlines.Basic
import Tenure.Proofs.Service.Grouping

/-!
# Looking names up

A party that books by names first finds out which resources they are. For each name it reads the
members of the group one after the other until it finds one that has it
(`Ledger.readsForAll`), and reads each of them under its lock, which it shares with other
readers and for which it waits as long as it takes.

**What is read is known beforehand**, since the members of a group and their names stay. So all
that a look-up does is to take locks and to give them back (`Ledger.Skims`). A lock that can be
shared is as it was when it is given back, so either the look-up comes to its end as if nothing
had been locked, or it waits for the first lock that cannot be shared (`Ledger.Skims.run`).
-/

namespace Tenure

/-! ## Locks that are taken for a moment -/

namespace Lock

variable {l : Lock} {owner : Owner}

/-- A lock that is shared for a moment is as it was. -/
theorem release_request (new : ∀ mode, (owner, mode) ∉ l.row) (ready : l.ready .shared = true) :
    (l.request owner .shared).2.release owner = l := by
  obtain ⟨holders, queue⟩ := l
  obtain rfl : queue = [] := List.isEmpty_iff.1 (Bool.and_eq_true_iff.1 ready).1
  have others : (holders.filter fun h => h.1 ≠ owner) = holders := by
    rw [List.filter_eq_self]
    intro h hh
    refine decide_eq_true fun own => new h.2 ?_
    rw [← own]
    exact List.mem_append_left _ hh
  rw [request, if_pos ready, release, List.filter_append, others]
  simp [promote, promoted]

end Lock

namespace Locks

variable {ls ls' : Locks} {owner : Owner} {key : Key} {mode : Mode}

theorem Alike.places (h : ls.Alike ls') : ls'.places owner = ls.places owner := by
  funext key
  rw [Locks.places, Locks.places, h key]

/-- Whoever has no place in a row is not in it. -/
theorem not_mem_row_of_places (h : ls.places owner key = []) : (owner, mode) ∉ (ls.get key).row :=
  fun here => List.ne_nil_of_mem (mem_places.2 here) h

/-- Asking leads to a place. -/
theorem places_request (key' : Key) : (ls.request owner key mode).2.places owner key' =
    if key' = key then ls.places owner key' ++ [(owner, mode)] else ls.places owner key' := by
  rw [request, places_set]
  split
  · next here =>
    subst here
    rw [Lock.row_request, List.filter_append]
    simp [places]
  · rfl

/-- Whoever has the only place it had there gives it back. -/
theorem places_release (has : (owner, mode) ∈ (ls.get key).holders)
    (only : ls.places owner key = [(owner, mode)]) (key' : Key) :
    (ls.release owner key).places owner key' = if key' = key then [] else ls.places owner key' := by
  rw [release, places_set, Lock.row_release, List.filter_append, List.filter_filter]
  refine ite_congr rfl (fun here => ?_) fun _ => rfl
  -- the one place is among the holders, so there is none in the queue
  rw [places, Lock.row, List.filter_append] at only
  have held : (owner, mode) ∈ (ls.get key).holders.filter fun h => h.1 = owner :=
    List.mem_filter.2 ⟨has, decide_eq_true rfl⟩
  have queue : ((ls.get key).queue.filter fun h => h.1 = owner) = [] := by
    have lengths := congrArg List.length only
    have some := List.length_pos_of_mem held
    rw [List.length_append, List.length_singleton] at lengths
    exact List.eq_nil_of_length_eq_zero (by omega)
  rw [queue, List.append_nil, List.filter_eq_nil_iff]
  intro h _
  simp

/-- **Locks that are shared for a moment** look the same afterwards. -/
theorem alike_release_request (new : ls.places owner key = [])
    (ready : (ls.get key).ready .shared = true) :
    ls.Alike ((ls.request owner key .shared).2.release owner key) := by
  intro key'
  simp only [release, request, get_set, if_pos]
  split
  · next here =>
    rw [here]
    exact Lock.release_request (fun mode => not_mem_row_of_places new) ready
  · rfl

end Locks

/-! ## What is read -/

namespace Ledger

variable {α β : Type} {l l' : Ledger} {id : Id} {ids : List Id} {name : String}

/-- Which of some resources are read to find the first one of a name: all that are known, up to
that one. -/
def readsFor (l : Ledger) (name : String) : List Id → List Id
  | [] => []
  | id :: ids =>
    match l.resources.get? id with
    | none => l.readsFor name ids
    | some r => if r.name = some name then [id] else id :: l.readsFor name ids

/-- Which members of a group are read to find the first one of each name. -/
def readsForAll (l : Ledger) (group : Id) (names : List String) : List Id :=
  names.flatMap fun name => l.readsFor name (l.members group)

/-! ## Calls that only read on -/

/-- The calls run in the same way on every ledger with the books of `l`. -/
def RunsAs (l : Ledger) (c d : Call Ledger α) : Prop :=
  ∀ owner m l' ls, Akin l l' → c.run owner m l' ls = d.run owner m l' ls

/-- The call reads resources one after the other, under their locks and without deadline, and then
goes on as `rest`. -/
def Skims (l : Ledger) (rest : Call Ledger α) : List Id → Call Ledger α → Prop
  | [], c => l.RunsAs c rest
  | id :: ids, c => ∃ k d, l.RunsAs c (.acquire (.resource id) .shared none k) ∧
      l.RunsAs (k true) (.release (.resource id) d) ∧ l.Skims rest ids d

variable {rest c d : Call Ledger α} {more : List Id}

theorem RunsAs.trans {e : Call Ledger α} (h : l.RunsAs c d) (h' : l.RunsAs d e) : l.RunsAs c e :=
  fun owner m l' ls akin => (h owner m l' ls akin).trans (h' owner m l' ls akin)

theorem Skims.of_runsAs (same : l.RunsAs c d) (h : l.Skims rest ids d) : l.Skims rest ids c := by
  cases ids with
  | nil => exact same.trans h
  | cons id ids =>
    obtain ⟨k, e, first, next⟩ := h
    exact ⟨k, e, same.trans first, next⟩

/-- A call that goes on with what it reads off the books. -/
theorem skims_gets {f : Ledger → β} {g : β → Call Ledger α}
    (stays : ∀ l', Akin l l' → f l' = f l) (h : l.Skims rest ids (g (f l))) :
    l.Skims rest ids ((Call.gets f).bind g) := by
  refine Skims.of_runsAs (fun owner m l' ls akin => ?_) h
  rw [← stays l' akin]
  rfl

/-- Whether a resource is known stays so. -/
theorem Akin.contains (akin : Akin l l') (id : Id) :
    l'.resources.contains id = l.resources.contains id := by
  have known := congrArg Option.isSome (akin.map_name id)
  rwa [Option.isSome_map, Option.isSome_map, ← Table.contains_eq_isSome,
    ← Table.contains_eq_isSome] at known

theorem skims_readOne_of_none {g : Option (Option String) → Call Ledger α}
    (unknown : l.resources.get? id = none) (h : l.Skims rest more (g none)) :
    l.Skims rest more ((readOne id Resource.name).bind g) := by
  refine Skims.of_runsAs (fun owner m l' ls akin => ?_) h
  have missing : l'.resources.contains id = false := by
    rw [akin.contains, Table.contains_eq_isSome, unknown]
    rfl
  simp [readOne, Call.gets, Call.run, Call.bind, missing]

theorem skims_readOne {g : Option (Option String) → Call Ledger α} {r : Resource}
    (known : l.resources.get? id = some r) (h : l.Skims rest more (g (some r.name))) :
    l.Skims rest (id :: more) ((readOne id Resource.name).bind g) := by
  refine ⟨fun _ => (Call.gets fun l => (l.resources.get? id).map Resource.name).bind fun o =>
    .release (.resource id) (g o), _, fun owner m l' ls akin => ?_, fun owner m l' ls akin => ?_, h⟩
  · have there : l'.resources.contains id = true := by
      rw [akin.contains, Table.contains_eq_isSome, known]
      rfl
    simp [readOne, Call.holding, Call.lock, Call.unlock, Call.gets, Call.run, Call.bind, there]
  · have same : (l'.resources.get? id).map Resource.name = some r.name := by
      rw [akin.map_name, known, Option.map_some]
    simp [Call.gets, Call.run, Call.bind, same]

theorem skims_findAmong {g : Option Id → Call Ledger α}
    (h : l.Skims rest more (g (ids.find? fun id =>
      (l.resources.get? id).bind Resource.name = some name))) :
    l.Skims rest (l.readsFor name ids ++ more) ((findAmong name ids).bind g) := by
  induction ids with
  | nil => exact h
  | cons id ids ih =>
    have further (other : (l.resources.get? id).bind Resource.name ≠ some name) :
        l.Skims rest (l.readsFor name ids ++ more) ((findAmong name ids).bind g) := by
      refine ih ?_
      rwa [List.find?_cons_of_neg (by simpa using other)] at h
    simp only [findAmong, Call.bind_eq, Call.bind_assoc]
    cases known : l.resources.get? id with
    | none =>
      rw [readsFor, known]
      exact skims_readOne_of_none known (further (by simp [known]))
    | some r =>
      simp only [readsFor, known]
      split
      · next same =>
        refine skims_readOne known ?_
        rw [List.find?_cons_of_pos (by simp [known, same])] at h
        rw [same]
        simpa using h
      · next other =>
        refine skims_readOne known ?_
        have on := further (by simpa [known] using other)
        cases hn : r.name with
        | none => exact on
        | some n =>
          have apart : n ≠ name := fun e => other (by rw [hn, e])
          simpa [apart] using on

theorem skims_find {group : Id} {g : Option Id → Call Ledger α}
    (h : l.Skims rest more (g (l.named group name))) :
    l.Skims rest (l.readsFor name (l.members group) ++ more) ((find group name).bind g) := by
  rw [find, Call.bind_eq, Call.bind_assoc]
  exact skims_gets (fun l' akin => akin.members group) (skims_findAmong h)

theorem skims_findAll {group : Id} {names : List String} {found : List Id}
    {g : Option (List Id) → Call Ledger α} (all : l.allNamed group names = some found)
    (h : l.Skims rest more (g (some found))) :
    l.Skims rest (l.readsForAll group names ++ more) ((findAll group names).bind g) := by
  induction names generalizing found g with
  | nil =>
    cases all
    exact h
  | cons name names ih =>
    rw [allNamed] at all
    split at all
    · cases all
    · next id first =>
      obtain ⟨others, allOthers, rfl⟩ := Option.map_eq_some_iff.1 all
      rw [readsForAll, List.flatMap_cons, List.append_assoc, findAll, Call.bind_eq, Call.bind_assoc]
      refine skims_find ?_
      rw [first]
      simp only [Call.bind_eq, Call.bind_assoc]
      exact ih allOthers h

/-- **Booking by names** is to read the members, and to book the resources found. -/
theorem skims_bookByName (s : CoordinatorSettings) {group : Id} {holder : String}
    {names : List String} {price : Float → Float} {found : List Id}
    {g : Except CallError (Reservation Booking) → Call Ledger α}
    (all : l.allNamed group names = some found) :
    l.Skims ((bookGroup s group holder found price).bind g) (l.readsForAll group names)
      ((bookByName s group holder names price).bind g) := by
  rw [bookByName, Call.bind_eq, Call.bind_assoc, ← List.append_nil (l.readsForAll group names)]
  exact skims_findAll all fun _ _ _ _ _ => rfl

/-! ## How far it comes -/

/-- **A stretch of a look-up** comes to its end, and then it is as if no lock had been taken; or it
waits for a lock that cannot be shared. -/
theorem Skims.run {owner : Owner} {m : Moment} {ls : Locks} (h : l.Skims rest ids c)
    (akin : Akin l l') (new : ∀ key, ls.places owner key = []) :
    (∃ ls', ls.Alike ls' ∧ c.run owner m l' ls = rest.run owner m l' ls') ∨
    ∃ id more k d ls', (id :: more) <:+ ids ∧ (ls.get (.resource id)).ready .shared = false ∧
      l.RunsAs (k true) (.release (.resource id) d) ∧ l.Skims rest more d ∧ ls.Alike ls' ∧
      c.run owner m l' ls = (.waiting (.lock (.resource id) .shared none k), l',
        (ls'.request owner (.resource id) .shared).2) := by
  induction ids generalizing c ls with
  | nil => exact .inl ⟨ls, .refl ls, h owner m l' ls akin⟩
  | cons id ids ih =>
    obtain ⟨k, d, first, next, h⟩ := h
    have served : (ls.request owner (.resource id) .shared).1 =
        (ls.get (.resource id)).ready .shared := Lock.request_fst
    rw [first owner m l' ls akin]
    simp only [Call.run, served]
    cases ready : (ls.get (.resource id)).ready .shared with
    | false =>
      exact .inr ⟨id, ids, k, d, ls, List.suffix_rfl, ready, next, h, .refl ls, rfl⟩
    | true =>
      have alike := Locks.alike_release_request (new (.resource id)) ready
      rw [if_pos rfl, next owner m l' _ akin, Call.run]
      rcases ih h (fun key => (congrFun alike.places key).trans (new key)) with
        ⟨ls', alike', ends⟩ | ⟨id', more, k', d', ls', rest, busy, next', skims, alike', waits⟩
      · exact .inl ⟨ls', alike.trans alike', ends⟩
      · refine .inr ⟨id', more, k', d', ls', rest.trans (List.suffix_cons id ids), ?_, next', skims,
          alike.trans alike', waits⟩
        rwa [alike] at busy

end Ledger

end Tenure
