import Tenure.Lock

/-!
# What holding a lock is worth

Two facts about locks carry every argument on calls that run side by side.

* **An exclusive holder is alone** (`Lock.Proper`). Every way a lock changes hands keeps
  this: a request is served only if there is room beside the holders, and so is everybody
  to whom the lock is passed on.
* **Only its holder gives a lock up** (`Locks.Grants`). Whatever a party asks for, gives
  back or stops waiting for, what another party holds stays held.

Together: what one party holds exclusively no other party holds (`Locks.Grants.apart`).
-/

namespace Tenure

namespace Lock

variable {l : Lock} {owner other : Owner} {mode : Mode} {holders queue : List (Owner × Mode)}

/-- Whoever holds the lock exclusively holds it alone. -/
def Proper (l : Lock) : Prop :=
  ∀ owner, (owner, Mode.exclusive) ∈ l.holders → l.holders = [(owner, .exclusive)]

theorem proper_free : free.Proper := fun _ h => absurd h List.not_mem_nil

/-- One more holder for whom there is room leaves an exclusive holder alone. -/
theorem Proper.append (h : Proper ⟨holders, queue⟩) (room : roomFor holders mode = true)
    (queue' : List (Owner × Mode)) : Proper ⟨holders ++ [(owner, mode)], queue'⟩ := by
  intro o ho
  cases mode with
  | exclusive =>
    obtain rfl : holders = [] := by simpa [roomFor] using room
    obtain rfl : o = owner := by simpa using ho
    rfl
  | shared =>
    have hold : (o, Mode.exclusive) ∈ holders := by simpa using ho
    -- an exclusive holder leaves no room to share
    have hs : ∀ a ∈ holders, a.2 = Mode.shared := by simpa [roomFor] using room
    exact absurd (hs _ hold) (by simp)

/-- Passing a lock on leaves an exclusive holder alone. -/
theorem Proper.promoted (h : Proper ⟨holders, queue⟩) : (promoted holders queue).Proper := by
  induction queue generalizing holders with
  | nil => exact h
  | cons w queue ih =>
    rw [Lock.promoted]
    split
    · next room => exact ih (h.append room queue)
    · exact h

/-- With fewer holders an exclusive one is alone all the same. -/
theorem Proper.filter (h : Proper ⟨holders, queue⟩) (p : Owner × Mode → Bool) :
    Proper ⟨holders.filter p, queue⟩ := by
  intro o ho
  obtain ⟨hold, hp⟩ := List.mem_filter.1 ho
  have alone : holders = [(o, .exclusive)] := h o hold
  simp [alone, hp]

theorem Proper.request (h : l.Proper) (owner : Owner) (mode : Mode) :
    (l.request owner mode).2.Proper := by
  simp only [Lock.request]
  split
  · next hr =>
    have room : roomFor l.holders mode = true := by
      simp only [ready, Bool.and_eq_true] at hr
      exact hr.2
    exact Proper.append h room l.queue
  · exact h

theorem Proper.release (h : l.Proper) (owner : Owner) : (l.release owner).Proper :=
  (Proper.filter h _).promoted

theorem Proper.withdraw (h : l.Proper) (owner : Owner) : (l.withdraw owner).Proper :=
  Proper.promoted h

/-- Whoever holds a lock still does after it was passed on. -/
theorem mem_holders_promoted {a : Owner × Mode} (h : a ∈ holders) :
    a ∈ (promoted holders queue).holders := by
  induction queue generalizing holders with
  | nil => exact h
  | cons w queue ih =>
    rw [promoted]
    split
    · exact ih (List.mem_append_left _ h)
    · exact h

theorem mem_holders_request {a : Owner × Mode} (h : a ∈ l.holders) :
    a ∈ (l.request owner mode).2.holders := by
  simp only [request]
  split
  · exact List.mem_append_left _ h
  · exact h

/-- A request that is served makes its owner a holder. -/
theorem mem_holders_of_served (h : (l.request owner mode).1 = true) :
    (owner, mode) ∈ (l.request owner mode).2.holders := by
  simp only [request] at h ⊢
  split
  · exact List.mem_append_right _ (List.mem_singleton.2 rfl)
  · next hr => rw [if_neg hr] at h; cases h

theorem mem_holders_release {a : Owner × Mode} (h : a ∈ l.holders) (ne : a.1 ≠ owner) :
    a ∈ (l.release owner).holders :=
  mem_holders_promoted (List.mem_filter.2 ⟨h, by simpa using ne⟩)

theorem mem_holders_withdraw {a : Owner × Mode} (h : a ∈ l.holders) :
    a ∈ (l.withdraw owner).holders :=
  mem_holders_promoted h

end Lock

namespace Locks

variable {ls : Locks} {owner other : Owner} {key : Key} {mode : Mode} {held held' : List Key}

/-- Every exclusive holder is alone. -/
def Proper (ls : Locks) : Prop := ∀ key, (ls.get key).Proper

/-- A party holds keys exclusively. -/
def Grants (ls : Locks) (owner : Owner) (held : List Key) : Prop :=
  ∀ key ∈ held, (owner, Mode.exclusive) ∈ (ls.get key).holders

/-- Two lists of keys with nothing in common. -/
def Apart (held held' : List Key) : Prop := ∀ key ∈ held, key ∉ held'

theorem grants_nil : ls.Grants owner [] := fun _ h => absurd h List.not_mem_nil

theorem proper_empty : Locks.empty.Proper := fun _ => Lock.proper_free

/-- **Exclusion**: what one party holds exclusively no other one does. -/
theorem Grants.apart (proper : ls.Proper) (h : ls.Grants owner held) (h' : ls.Grants other held')
    (ne : other ≠ owner) : Apart held held' := by
  intro key hk hk'
  have alone := proper key owner (h key hk)
  have both := h' key hk'
  rw [alone, List.mem_singleton, Prod.mk.injEq] at both
  exact ne both.1

/-- Changing one lock properly changes all of them so. -/
theorem Proper.set (h : ls.Proper) {l : Lock} (hl : l.Proper) : (ls.set key l).Proper := by
  intro key'
  rw [get_set]
  split
  · exact hl
  · exact h key'

theorem Proper.request (h : ls.Proper) (owner : Owner) (key : Key) (mode : Mode) :
    (ls.request owner key mode).2.Proper := h.set ((h key).request owner mode)

theorem Proper.release (h : ls.Proper) (owner : Owner) (key : Key) : (ls.release owner key).Proper :=
  h.set ((h key).release owner)

theorem Proper.withdraw (h : ls.Proper) (owner : Owner) (key : Key) :
    (ls.withdraw owner key).Proper := h.set ((h key).withdraw owner)

/-- What a party holds it still holds if the change of one lock lets it. -/
theorem Grants.set (h : ls.Grants owner held) {l : Lock}
    (hl : key ∈ held → (owner, Mode.exclusive) ∈ l.holders) : (ls.set key l).Grants owner held := by
  intro key' hk
  rw [get_set]
  split
  · next e => exact hl (e ▸ hk)
  · exact h key' hk

theorem Grants.request (h : ls.Grants owner held) (other : Owner) (key : Key) (mode : Mode) :
    (ls.request other key mode).2.Grants owner held :=
  h.set fun hk => Lock.mem_holders_request (h key hk)

theorem Grants.withdraw (h : ls.Grants owner held) (other : Owner) (key : Key) :
    (ls.withdraw other key).Grants owner held :=
  h.set fun hk => Lock.mem_holders_withdraw (h key hk)

/-- Others do not give up what a party holds. -/
theorem Grants.release_of_ne (h : ls.Grants owner held) (ne : owner ≠ other) (key : Key) :
    (ls.release other key).Grants owner held :=
  h.set fun hk => Lock.mem_holders_release (h key hk) ne

/-- What a party does not give up itself it keeps. -/
theorem Grants.release (h : ls.Grants owner held) (key : Key) :
    (ls.release owner key).Grants owner (held.filter fun k => k ≠ key) := by
  have rest : ls.Grants owner (held.filter fun k => k ≠ key) :=
    fun k hk => h k (List.mem_filter.1 hk).1
  refine rest.set fun hk => ?_
  simp at hk

/-- The keys that a party holds exclusively once it got one more lock. -/
def gained (mode : Mode) (key : Key) (held : List Key) : List Key :=
  match mode with
  | .exclusive => key :: held
  | .shared => held

/-- A lock that a party holds adds to what it holds. -/
theorem Grants.gained (h : ls.Grants owner held) (got : (owner, mode) ∈ (ls.get key).holders) :
    ls.Grants owner (gained mode key held) := by
  cases mode with
  | shared => exact h
  | exclusive =>
    intro k hk
    rcases List.mem_cons.1 hk with rfl | hk
    · exact got
    · exact h k hk

/-- A request that is served adds to what its owner holds. -/
theorem Grants.request_served (h : ls.Grants owner held)
    (served : (ls.request owner key mode).1 = true) :
    (ls.request owner key mode).2.Grants owner (Locks.gained mode key held) := by
  refine (h.request owner key mode).gained ?_
  simp only [Locks.request, get_set, if_pos]
  exact Lock.mem_holders_of_served served

end Locks

end Tenure
