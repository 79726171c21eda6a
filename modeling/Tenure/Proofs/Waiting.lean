import Mathlib.Data.List.Nodup
import Mathlib.Logic.Relation
import Tenure.Proofs.Histories
import Tenure.Traffic.FineMoves

/-!
# Nobody waits in a circle

Locks have an order (`Key.Before`): those of groups come before those of resources, and
resources come one after the other. A call *climbs* (`Call.Climbs`) if it asks for a lock only
while every lock that it has comes before it.

Where all calls climb, a party that waits for a lock, and whoever has that lock or asked for it
earlier, are not far from each other (`Traffic.Climbing.above`): if the other one waits too, it
waits for a later lock, or for the same lock further to the front. So nobody waits for itself,
however many others are in between (`Traffic.Climbing.acyclic`).
-/

namespace Tenure

variable {σ τ α β : Type}

/-! ## The order of locks -/

/-- The order in which locks are taken. -/
def Key.Before : Key → Key → Prop
  | group _, resource _ => True
  | resource a, resource b => a ≤ b ∧ a ≠ b
  | _, group _ => False

theorem Key.Before.irrefl {key : Key} : ¬ key.Before key := by
  cases key <;> simp [Key.Before]

theorem Key.Before.trans {a b c : Key} (h : a.Before b) (h' : b.Before c) : a.Before c := by
  cases c with
  | group c => cases b <;> exact h'.elim
  | resource c =>
    cases b with
    | group b => cases a <;> exact h.elim
    | resource b =>
      cases a with
      | group a => trivial
      | resource a =>
        refine ⟨Id.le_trans h.1 h'.1, ?_⟩
        rintro rfl
        exact h.2 (Id.le_antisymm h.1 h'.1)

/-! ## Rows of parties at a lock -/

namespace Lock

variable {l : Lock} {owner other : Owner} {mode : Mode} {a : Owner × Mode}
  {holders queue : List (Owner × Mode)}

/-- All who have a lock or wait for it, in order of asking. -/
def row (l : Lock) : List (Owner × Mode) := l.holders ++ l.queue

/-- Whoever asks comes last. -/
theorem row_request : (l.request owner mode).2.row = l.row ++ [(owner, mode)] := by
  simp only [request]
  split
  · next ready =>
    simp only [Lock.ready, Bool.and_eq_true, List.isEmpty_iff] at ready
    simp [row, ready.1]
  · simp [row]

/-- Whoever lets go leaves the row, and nobody moves up or down in it. -/
theorem row_release :
    (l.release owner).row = (l.holders.filter fun h => h.1 ≠ owner) ++ l.queue :=
  promoted_append _ _

/-- So does whoever gives up. -/
theorem row_withdraw :
    (l.withdraw owner).row = l.holders ++ l.queue.filter fun h => h.1 ≠ owner :=
  promoted_append _ _

/-- Whoever waits after the lock is passed on waited before. -/
theorem queue_promoted (h : a ∈ (promoted holders queue).queue) : a ∈ queue := by
  induction queue generalizing holders with
  | nil => exact h
  | cons w queue ih =>
    rw [promoted] at h
    split at h
    · exact List.mem_cons_of_mem _ (ih h)
    · exact h

/-- Whoever waits after a request waited before, or has made it in vain. -/
theorem mem_queue_request (h : a ∈ (l.request owner mode).2.queue) :
    a ∈ l.queue ∨ ((l.request owner mode).1 = false ∧ a = (owner, mode)) := by
  simp only [request] at h ⊢
  split at h
  · exact .inl h
  · next busy =>
    rw [if_neg busy]
    exact (List.mem_append.1 h).imp_right fun h => ⟨rfl, List.mem_singleton.1 h⟩

/-- Nobody is in a row twice. -/
def Single (l : Lock) : Prop := (l.row.map Prod.fst).Nodup

/-- Nobody is in the row twice, if only those ask who are not in it. -/
theorem Single.request (h : l.Single) (new : ∀ mode, (owner, mode) ∉ l.row) :
    (l.request owner mode).2.Single := by
  rw [Single, row_request, List.map_append, List.nodup_append]
  refine ⟨h, List.nodup_singleton _, ?_⟩
  rintro o ho _ ho' rfl
  obtain ⟨⟨_, mode'⟩, here, rfl⟩ := List.mem_map.1 ho
  obtain rfl := List.mem_singleton.1 ho'
  exact new mode' here

/-- Fewer parties in a row. -/
theorem Single.sublist {l' : Lock} (h : l.Single) (fewer : l'.row.Sublist l.row) : l'.Single :=
  List.Nodup.sublist (fewer.map _) h

theorem Single.release (h : l.Single) (owner : Owner) : (l.release owner).Single :=
  h.sublist (row_release ▸ List.filter_sublist.append_right _)

theorem Single.withdraw (h : l.Single) (owner : Owner) : (l.withdraw owner).Single :=
  h.sublist (row_withdraw ▸ List.filter_sublist.append_left _)

/-- Whoever has a lock does not wait for it. -/
theorem Single.not_queued {mode' : Mode} (h : l.Single) (has : (owner, mode) ∈ l.holders) :
    (owner, mode') ∉ l.queue := by
  intro waits
  rw [Single, row, List.map_append, List.nodup_append] at h
  exact h.2.2 owner (List.mem_map_of_mem has) owner (List.mem_map_of_mem waits) rfl

/-- Nobody waits for a lock that nobody has. -/
def Served (l : Lock) : Prop := l.holders = [] → l.queue = []

/-- Passing a lock on leaves it with those whose turn it is. -/
theorem served_promoted (holders queue : List (Owner × Mode)) :
    (promoted holders queue).Served := by
  intro free
  cases waits : (promoted holders queue).queue with
  | nil => rfl
  | cons w rest =>
    have full := not_roomFor_of_promoted waits
    rw [free] at full
    cases hm : w.2 <;> simp [roomFor, hm] at full

/-- A request leaves it with them, too. -/
theorem Served.request (h : l.Served) (owner : Owner) (mode : Mode) :
    (l.request owner mode).2.Served := by
  intro free
  simp only [Lock.request] at free ⊢
  split at free
  · simp at free
  · next busy =>
    -- it was free already, so the request was served
    change l.holders = [] at free
    have ready : l.ready mode = true := by cases mode <;> simp [Lock.ready, roomFor, free, h free]
    exact absurd ready busy

/-- One party asked before another one, and both still wait. -/
def AskedBefore (l : Lock) (first second : Owner) : Prop :=
  ∃ earlier later mode mode', l.queue = earlier ++ (first, mode) :: later ∧ (second, mode') ∈ later

/-- How many asked before a party that waits. -/
def place (l : Lock) (owner : Owner) : Nat := (l.queue.map Prod.fst).idxOf owner

/-- Whoever asked before somebody else stands before them. -/
theorem AskedBefore.place_lt {first second : Owner} (h : l.AskedBefore first second)
    (single : l.Single) : l.place first < l.place second := by
  obtain ⟨earlier, later, mode, mode', queue, waits⟩ := h
  have single : ((earlier.map Prod.fst) ++ first :: later.map Prod.fst).Nodup := by
    rw [Single, row, List.map_append, queue, List.map_append, List.map_cons] at single
    exact (List.nodup_append.1 single).2.1
  have waits : second ∈ later.map Prod.fst := List.mem_map_of_mem waits
  obtain ⟨-, rest, apart⟩ := List.nodup_append.1 single
  have notFirst : first ∉ earlier.map Prod.fst := fun h => apart _ h _ List.mem_cons_self rfl
  have notSecond : second ∉ earlier.map Prod.fst :=
    fun h => apart _ h _ (List.mem_cons_of_mem _ waits) rfl
  have ne : first ≠ second := by
    rintro rfl
    exact (List.nodup_cons.1 rest).1 waits
  rw [place, place, queue, List.map_append, List.map_cons, List.idxOf_append_of_notMem notFirst,
    List.idxOf_append_of_notMem notSecond, List.idxOf_cons_self, List.idxOf_cons_ne _ ne]
  omega

end Lock

namespace Locks

variable {ls ls' : Locks} {owner other : Owner} {key : Key} {mode : Mode} {held : List Key}

/-- Nobody is in a row twice. -/
def Single (ls : Locks) : Prop := ∀ key, (ls.get key).Single

theorem single_empty : Locks.empty.Single := fun _ => List.nodup_nil

theorem Single.set (h : ls.Single) {l : Lock} (hl : l.Single) : (ls.set key l).Single := by
  intro key'
  rw [get_set]
  split
  · exact hl
  · exact h key'

/-- Nobody waits for a lock that nobody has. -/
def Served (ls : Locks) : Prop := ∀ key, (ls.get key).Served

theorem served_empty : Locks.empty.Served := fun _ _ => rfl

theorem Served.set (h : ls.Served) {l : Lock} (hl : l.Served) : (ls.set key l).Served := by
  intro key'
  rw [get_set]
  split
  · exact hl
  · exact h key'

/-- Where a party stands: it has no other locks than those in `held`, and waits for none, except
for what it `asks`. -/
structure Stands (ls : Locks) (owner : Owner) (held : List Key) (asks : Key → Mode → Prop) :
    Prop where
  /-- wherever it is in a row, it has that lock or asks for it -/
  row : ∀ key mode, (owner, mode) ∈ (ls.get key).row → key ∈ held ∨ asks key mode
  /-- wherever it waits, it asks -/
  queue : ∀ key mode, (owner, mode) ∈ (ls.get key).queue → asks key mode

/-- It waits for nothing. -/
def asksNothing : Key → Mode → Prop := fun _ _ => False

/-- What others see of a party that goes on: nobody else comes to be in a row, or to wait. -/
structure Spares (owner : Owner) (ls ls' : Locks) : Prop where
  /-- nobody else comes to be in a row -/
  row : ∀ other key mode, other ≠ owner →
    (other, mode) ∈ (ls'.get key).row → (other, mode) ∈ (ls.get key).row
  /-- nobody else comes to wait -/
  queue : ∀ other key mode, other ≠ owner →
    (other, mode) ∈ (ls'.get key).queue → (other, mode) ∈ (ls.get key).queue

theorem Spares.refl (owner : Owner) (ls : Locks) : Spares owner ls ls :=
  ⟨fun _ _ _ _ h => h, fun _ _ _ _ h => h⟩

theorem Spares.trans {ls'' : Locks} (h : Spares owner ls ls') (h' : Spares owner ls' ls'') :
    Spares owner ls ls'' :=
  ⟨fun o k m ne here => h.row o k m ne (h'.row o k m ne here),
    fun o k m ne here => h.queue o k m ne (h'.queue o k m ne here)⟩

/-- While one party goes on the others stand where they stood. -/
theorem Stands.spared {asks : Key → Mode → Prop} (h : ls.Stands other held asks)
    (spares : Spares owner ls ls') (ne : other ≠ owner) : ls'.Stands other held asks :=
  ⟨fun k m here => h.row k m (spares.row other k m ne here),
    fun k m here => h.queue k m (spares.queue other k m ne here)⟩

/-- Changing one lock spares the others if the change does. -/
theorem Spares.set {l : Lock}
    (row : ∀ other mode, other ≠ owner → (other, mode) ∈ l.row → (other, mode) ∈ (ls.get key).row)
    (queue : ∀ other mode, other ≠ owner →
      (other, mode) ∈ l.queue → (other, mode) ∈ (ls.get key).queue) :
    Spares owner ls (ls.set key l) := by
  constructor
  all_goals
    intro other key' mode ne here
    rw [get_set] at here
    split at here
    · next same =>
      subst same
      first
        | exact row other mode ne here
        | exact queue other mode ne here
    · exact here

/-! ### Asking, giving back, giving up -/

/-- A request changes nothing for the others, -/
theorem spares_request : Spares owner ls (ls.request owner key mode).2 := by
  refine .set (fun other mode' ne here => ?_) fun other mode' ne here => ?_
  · rw [Lock.row_request, List.mem_append, List.mem_singleton] at here
    exact here.resolve_right fun e => ne (Prod.mk.inj e).1
  · exact (Lock.mem_queue_request here).resolve_right fun e => ne (Prod.mk.inj e.2).1

/-- and leaving moves them up at most: -/
theorem spares_release : Spares owner ls (ls.release owner key) := by
  refine .set (fun other mode' _ here => ?_) fun other mode' _ here => Lock.queue_promoted here
  rw [Lock.row_release] at here
  exact (List.filter_sublist.append_right _).subset here

/-- giving up does the same. -/
theorem spares_withdraw : Spares owner ls (ls.withdraw owner key) := by
  refine .set (fun other mode' _ here => ?_) fun other mode' _ here =>
    (List.mem_filter.1 (Lock.queue_promoted here)).1
  rw [Lock.row_withdraw] at here
  exact (List.filter_sublist.append_left _).subset here

/-- Whoever asks for a lock that it does not have, and waits for none, stands in one more row. -/
theorem Stands.request (h : ls.Stands owner held asksNothing) :
    (ls.request owner key mode).2.Stands owner held fun k m => k = key ∧ m = mode := by
  constructor
  · intro key' mode' here
    simp only [Locks.request, get_set] at here
    split at here
    · next same =>
      subst same
      rw [Lock.row_request, List.mem_append, List.mem_singleton, Prod.mk.injEq] at here
      rcases here with here | ⟨-, rfl⟩
      · exact .inl ((h.row _ _ here).resolve_right id)
      · exact .inr ⟨rfl, rfl⟩
    · exact .inl ((h.row _ _ here).resolve_right id)
  · intro key' mode' here
    simp only [Locks.request, get_set] at here
    split at here
    · next same =>
      subst same
      rcases Lock.mem_queue_request here with here | ⟨-, e⟩
      · exact (h.queue _ _ here).elim
      · exact ⟨rfl, (Prod.mk.inj e).2⟩
    · exact (h.queue _ _ here).elim

/-- Whoever has what it asked for waits for nothing. -/
theorem Stands.got (h : ls.Stands owner held fun k m => k = key ∧ m = mode) (single : ls.Single)
    (has : (owner, mode) ∈ (ls.get key).holders) : ls.Stands owner (key :: held) asksNothing := by
  constructor
  · intro key' mode' here
    rcases h.row key' mode' here with here | ⟨rfl, -⟩
    · exact .inl (List.mem_cons_of_mem _ here)
    · exact .inl List.mem_cons_self
  · intro key' mode' here
    obtain ⟨rfl, rfl⟩ := h.queue key' mode' here
    exact (single key').not_queued has here

/-- Whoever gives up what it asked for waits for nothing. -/
theorem Stands.withdraw (h : ls.Stands owner held fun k m => k = key ∧ m = mode)
    (not : (owner, mode) ∉ (ls.get key).holders) :
    (ls.withdraw owner key).Stands owner held asksNothing := by
  constructor
  · intro key' mode' here
    simp only [Locks.withdraw, get_set] at here
    split at here
    · next same =>
      subst same
      rw [Lock.row_withdraw, List.mem_append, List.mem_filter] at here
      have has : (owner, mode') ∈ (ls.get key').holders := here.resolve_right (by simp)
      rcases h.row _ _ (List.mem_append_left _ has) with here | ⟨-, rfl⟩
      · exact .inl here
      · exact absurd has not
    · next other =>
      exact .inl ((h.row _ _ here).resolve_right fun same => other same.1)
  · intro key' mode' here
    simp only [Locks.withdraw, get_set] at here
    split at here
    · next same =>
      subst same
      have := (List.mem_filter.1 (Lock.queue_promoted here)).2
      simp at this
    · next other => exact other (h.queue _ _ here).1

/-- Whoever gives a lock back stands for the others as before. -/
theorem Stands.release (h : ls.Stands owner held asksNothing) :
    (ls.release owner key).Stands owner (held.filter fun k => k ≠ key) asksNothing := by
  constructor
  · intro key' mode' here
    simp only [Locks.release, get_set] at here
    split at here
    · next same =>
      subst same
      rw [Lock.row_release, List.mem_append, List.mem_filter] at here
      exact .inr (h.queue _ _ (here.resolve_left (by simp)))
    · next other =>
      exact .inl (List.mem_filter.2 ⟨(h.row _ _ here).resolve_right id, by simpa using other⟩)
  · intro key' mode' here
    simp only [Locks.release, get_set] at here
    split at here
    · next same =>
      subst same
      exact h.queue _ _ (Lock.queue_promoted here)
    · exact h.queue _ _ here

end Locks

/-! ### Along a stretch -/

/-- What holds however a party asks for locks, gives them back and gives up waiting for them holds
when it waits or answers. -/
theorem Call.run_locks {P : Locks → Prop} {owner : Owner} {m : Moment}
    (request : ∀ ls key mode, P ls → P (ls.request owner key mode).2)
    (release : ∀ ls key, P ls → P (ls.release owner key))
    (withdraw : ∀ ls key, P ls → P (ls.withdraw owner key)) (c : Call σ α) (s : σ) {ls : Locks}
    (h : P ls) : P (c.run owner m s ls).2.2 := by
  induction c generalizing s ls with
  | done a => exact h
  | look k ih => exact ih m s s h
  | save next k ih => exact ih next h
  | acquire key mode patience k ih =>
    have asked := request ls key mode h
    simp only [Call.run]
    split
    · exact ih true s asked
    · split
      · exact ih false s (withdraw _ key asked)
      · exact asked
  | release key k ih => exact ih s (release ls key h)
  | probe key mode k ih => exact ih _ s h
  | pause due sign k ih =>
    simp only [Call.run]
    split
    · exact ih s h
    · split
      · exact ih _ h
      · exact h

/-- The same of the wait before. -/
theorem Wait.over_locks {P : Locks → Prop} {owner : Owner} {m : Moment} {ls : Locks}
    (withdraw : ∀ ls key, P ls → P (ls.withdraw owner key)) {w : Wait σ α} {s : σ}
    {go : Call σ α × σ × Locks} (isOver : w.Over owner m s ls go) (h : P ls) :
    P go.2.2 := by
  cases isOver with
  | gaveUp k not passed => exact withdraw ls _ h
  | _ => exact h

namespace Locks

variable {owner : Owner} {m : Moment} {ls : Locks}

/-- **Stretches** leave nobody waiting for a lock that nobody has. -/
theorem Served.stretch (h : ls.Served) {w : Wait σ α} {s : σ} {go : Call σ α × σ × Locks}
    (isOver : w.Over owner m s ls go) :
    (go.1.run owner m go.2.1 go.2.2).2.2.Served := by
  have withdraw : ∀ (ls : Locks) key, ls.Served → (ls.withdraw owner key).Served :=
    fun ls key h => h.set (Lock.served_promoted _ _)
  exact go.1.run_locks (fun ls key mode h => h.set ((h key).request owner mode))
    (fun ls key h => h.set (Lock.served_promoted _ _)) withdraw go.2.1
    (Wait.over_locks withdraw isOver h)

/-- **Stretches** spare the others. -/
theorem spares_stretch {w : Wait σ α} {s : σ} {go : Call σ α × σ × Locks}
    (isOver : w.Over owner m s ls go) :
    Spares owner ls (go.1.run owner m go.2.1 go.2.2).2.2 := by
  have withdraw : ∀ (ls' : Locks) key, Spares owner ls ls' →
      Spares owner ls (ls'.withdraw owner key) := fun ls' key h => h.trans spares_withdraw
  exact go.1.run_locks (fun ls' key mode h => h.trans spares_request)
    (fun ls' key h => h.trans spares_release) withdraw go.2.1
    (Wait.over_locks withdraw isOver (.refl owner ls))

end Locks

/-! ## Climbing -/

namespace Call

variable (inv : σ → Prop)

/-- The call asks for a lock only while all that it has come before it, and ends as `ret` says.
`held` is what it has, in whatever mode; `inv` is what it may count on. -/
def Climbs (ret : List Key → α → Prop) : Call σ α → (held : List Key) → Prop
  | done a, held => ret held a
  | look k, held => ∀ m s, inv s → (k m s).Climbs ret held
  | save s k, held => inv s ∧ k.Climbs ret held
  | acquire key _ patience k, held =>
    (∀ k ∈ held, k.Before key) ∧ (k true).Climbs ret (key :: held) ∧
      (patience.isSome = true → (k false).Climbs ret held)
  | release key k, held => k.Climbs ret (held.filter fun k => k ≠ key)
  | probe _ _ k, held => ∀ b, (k b).Climbs ret held
  | pause _ sign k, held => (∀ s s', inv s → sign s = some s' → inv s') ∧ k.Climbs ret held

variable {inv} {ret ret' : List Key → α → Prop} {held : List Key}

/-- **Part by part.** -/
theorem climbs_bind {ret : List Key → β → Prop} {c : Call σ α} {f : α → Call σ β} :
    (c.bind f).Climbs inv ret held ↔
      c.Climbs inv (fun held a => (f a).Climbs inv ret held) held := by
  induction c generalizing held with
  | done a => exact Iff.rfl
  | look k ih => exact forall_congr' fun m => forall_congr' fun s => forall_congr' fun _ => ih m s
  | save s k ih => exact and_congr_right fun _ => ih
  | acquire key mode patience k ih =>
    exact and_congr_right fun _ => and_congr (ih true) (forall_congr' fun _ => ih false)
  | release key k ih => exact ih
  | probe key mode k ih => exact forall_congr' fun b => ih b
  | pause due sign k ih => exact and_congr_right fun _ => ih

/-- Less may be said of where a call ends. -/
theorem Climbs.mono {c : Call σ α} (h : c.Climbs inv ret held)
    (less : ∀ held a, ret held a → ret' held a) : c.Climbs inv ret' held := by
  induction c generalizing held with
  | done a => exact less _ _ h
  | look k ih => exact fun m s hs => ih m s (h m s hs)
  | save s k ih => exact ⟨h.1, ih h.2⟩
  | acquire key mode patience k ih => exact ⟨h.1, ih true h.2.1, fun late => ih false (h.2.2 late)⟩
  | release key k ih => exact ih h
  | probe key mode k ih => exact fun b => ih b (h b)
  | pause due sign k ih => exact ⟨h.1, ih h.2⟩

/-- A call on a part climbs as a call on the whole. -/
theorem Climbs.within {part : τ → σ} {put : σ → τ → τ} {c : Call σ α}
    (same : ∀ s t, part (put s t) = s) (h : c.Climbs inv ret held) :
    (c.within part put).Climbs (fun t => inv (part t)) ret held := by
  induction c generalizing held with
  | done a => exact h
  | look k ih => exact fun m t ht => ih m (part t) (h m _ ht)
  | save s k ih =>
    refine fun m t _ => ⟨?_, ih h.2⟩
    exact (congrArg inv (same s t)).mpr h.1
  | acquire key mode patience k ih => exact ⟨h.1, ih true h.2.1, fun late => ih false (h.2.2 late)⟩
  | release key k ih => exact ih h
  | probe key mode k ih => exact fun b => ih b (h b)
  | pause due sign k ih =>
    refine ⟨fun t t' ht sign' => ?_, ih h.2⟩
    obtain ⟨s, hs, rfl⟩ := Option.map_eq_some_iff.1 sign'
    exact (congrArg inv (same s t)).mpr (h.1 _ _ ht hs)

variable (inv)

/-- The call climbs, and has the same locks at its end as at its start. -/
def Ascends (c : Call σ α) (held : List Key) : Prop :=
  c.Climbs inv (fun held' _ => held' = held) held

variable {inv}

theorem ascends_done (a : α) : (done a : Call σ α).Ascends inv held := rfl

/-- **Part by part.** Two calls in a row ascend if each of them does. -/
theorem Ascends.bind {c : Call σ α} {f : α → Call σ β} (first : c.Ascends inv held)
    (rest : ∀ a, (f a).Ascends inv held) : (c.bind f).Ascends inv held :=
  climbs_bind.2 (first.mono fun _ a same => same ▸ rest a)

theorem ascends_gets {f : σ → α} : (gets f).Ascends inv held := fun _ _ _ => rfl

/-- What follows a look may count on the invariant of what was seen. -/
theorem ascends_gets_bind {f : σ → α} {k : α → Call σ β}
    (h : ∀ s, inv s → (k (f s)).Ascends inv held) : ((gets f).bind k).Ascends inv held :=
  fun _ s hs => h s hs

theorem ascends_modify {f : σ → σ} (keeps : ∀ s, inv s → inv (f s)) :
    (modify f).Ascends inv held := fun _ s hs => ⟨keeps s hs, rfl⟩

theorem ascends_update {f : Int → σ → α × σ} (keeps : ∀ now s, inv s → inv (f now s).2) :
    (update f).Ascends inv held := fun m s hs => ⟨keeps m.stamp s hs, rfl⟩

/-- Giving back the lock that was taken last leaves the others. -/
theorem filter_held {key : Key} (before : ∀ k ∈ held, k.Before key) :
    ((key :: held).filter fun k => k ≠ key) = held := by
  rw [List.filter_cons_of_neg (by simp), List.filter_eq_self]
  intro k hk
  have ne : k ≠ key := by
    rintro rfl
    exact Key.Before.irrefl (before k hk)
  simpa using ne

/-- What is done under a lock, and the giving back. -/
theorem Ascends.unlocked {key : Key} {body : Call σ α} (before : ∀ k ∈ held, k.Before key)
    (h : body.Ascends inv (key :: held)) :
    (do let a ← body; unlock key; return a : Call σ α).Climbs inv (fun held' _ => held' = held)
      (key :: held) :=
  climbs_bind.2 (h.mono fun _ _ same => (congrArg _ same).trans (filter_held before))

/-- **Under a lock** a call may go on ascending from there. -/
theorem Ascends.holding {key : Key} {mode : Mode} {body : Call σ α}
    (before : ∀ k ∈ held, k.Before key) (h : body.Ascends inv (key :: held)) :
    (holding key mode body).Ascends inv held :=
  ⟨before, h.unlocked before, fun none => nomatch none⟩

/-- The same with a lock for which it waits only so long. -/
theorem Ascends.holdingUntil {key : Key} {due : Nat} {late body : Call σ α}
    (before : ∀ k ∈ held, k.Before key) (h : body.Ascends inv (key :: held))
    (hl : late.Ascends inv held) : (holdingUntil key due late body).Ascends inv held :=
  ⟨before, h.unlocked before, fun _ => hl⟩

end Call

/-! ## Stretches of a call that climbs -/

/-- The rest of a call that waits. -/
def Wait.call : Wait σ α → Call σ α
  | turn c => c
  | lock key mode patience k => .acquire key mode patience k
  | pause due sign k => .pause due sign k

/-- The lock that a call waits for. -/
def Wait.asks : Wait σ α → Key → Mode → Prop
  | lock key mode _ _ => fun k m => k = key ∧ m = mode
  | _ => Locks.asksNothing

instance : (w : Wait σ α) → (key : Key) → (mode : Mode) → Decidable (w.asks key mode)
  | .lock key mode _ _, key', mode' => inferInstanceAs (Decidable (key' = key ∧ mode' = mode))
  | .turn _, _, _ => inferInstanceAs (Decidable False)
  | .pause _ _ _, _, _ => inferInstanceAs (Decidable False)

variable {inv : σ → Prop} {ret : List Key → α → Prop} {owner : Owner} {m : Moment} {s s' : σ}
  {ls ls' : Locks} {held : List Key} {key : Key} {mode : Mode}

/-- A call waits for one lock at a time. -/
theorem Wait.asks_unique {w : Wait σ α} {key key' : Key} {mode mode' : Mode} (h : w.asks key mode)
    (h' : w.asks key' mode') : key' = key ∧ mode' = mode := by
  cases w with
  | lock => exact ⟨h'.1.trans h.1.symm, h'.2.trans h.2.symm⟩
  | turn => exact h.elim
  | pause => exact h.elim

/-- All that a party has comes before what it asks for. -/
theorem Wait.before_of_asks {w : Wait σ α} (h : w.call.Climbs inv ret held)
    (asks : w.asks key mode) : ∀ k ∈ held, k.Before key := by
  cases w with
  | lock =>
    obtain ⟨rfl, rfl⟩ := asks
    exact h.1
  | turn => exact asks.elim
  | pause => exact asks.elim

/-- What a stretch of a call that climbs leaves behind. -/
structure Climbed (inv : σ → Prop) (ret : List Key → α → Prop) (owner : Owner) (ls : Locks)
    (r : Stop σ α × σ × Locks) : Prop where
  /-- the call has ended, or it waits and climbs from there -/
  ends : match r.1 with
    | .returned a => ∃ held, r.2.2.Stands owner held Locks.asksNothing ∧ ret held a
    | .waiting w => ∃ held, r.2.2.Stands owner held w.asks ∧ w.call.Climbs inv ret held
  /-- the invariant holds -/
  inv : inv r.2.1
  /-- nobody is in a row twice -/
  single : r.2.2.Single
  /-- the others stand where they stood -/
  spares : Locks.Spares owner ls r.2.2

theorem Climbed.after {r : Stop σ α × σ × Locks} (h : Climbed inv ret owner ls' r)
    (first : Locks.Spares owner ls ls') : Climbed inv ret owner ls r :=
  ⟨h.ends, h.inv, h.single, first.trans h.spares⟩

/-- Where a call climbs it is not yet in the row it wants to be in. -/
theorem Locks.Stands.not_in_row (h : ls.Stands owner held Locks.asksNothing)
    (before : ∀ k ∈ held, k.Before key) (mode : Mode) : (owner, mode) ∉ (ls.get key).row :=
  fun here => Key.Before.irrefl (before key ((h.row key mode here).resolve_right id))

/-- A call that climbs comes to be in one more row. -/
theorem Locks.Single.request {patience : Option Nat} {k : Bool → Call σ α} (single : ls.Single)
    (h : (Call.acquire key mode patience k).Climbs inv ret held)
    (stands : ls.Stands owner held Locks.asksNothing) : (ls.request owner key mode).2.Single :=
  single.set ((single key).request (stands.not_in_row h.1))

/-- A call that climbs has one more lock when it is served. -/
theorem Locks.Stands.served {patience : Option Nat} {k : Bool → Call σ α}
    (stands : ls.Stands owner held Locks.asksNothing) (single : ls.Single)
    (h : (Call.acquire key mode patience k).Climbs inv ret held)
    (served : (ls.request owner key mode).1 = true) :
    (ls.request owner key mode).2.Stands owner (key :: held) Locks.asksNothing := by
  refine stands.request.got (single.request h stands) ?_
  simp only [Locks.request, get_set, if_pos]
  exact Lock.mem_holders_of_served served

/-- **Stretches climb.** -/
theorem Call.Climbs.run {c : Call σ α} (h : c.Climbs inv ret held) (hs : inv s)
    (single : ls.Single) (stands : ls.Stands owner held Locks.asksNothing) :
    Climbed inv ret owner ls (c.run owner m s ls) := by
  induction c generalizing held s ls with
  | done a => exact ⟨⟨held, stands, h⟩, hs, single, .refl owner ls⟩
  | look k ih => exact ih m s (h m s hs) hs single stands
  | save s' k ih => exact ih h.2 h.1 single stands
  | acquire key mode patience k ih =>
    have single' := single.request h stands
    simp only [Call.run]
    split
    · next served =>
      exact (ih true h.2.1 hs single' (stands.served single h served)).after Locks.spares_request
    · next busy =>
      split
      · next passed =>
        -- the call gives up at once
        have not : (owner, mode) ∉ ((ls.request owner key mode).2.get key).holders := by
          intro has
          simp only [Locks.request, Locks.get_set, if_pos, Lock.request] at has busy
          split at has
          · next ready => simp [ready] at busy
          · exact stands.not_in_row h.1 mode (List.mem_append_left _ has)
        have again := stands.request.withdraw not
        refine (ih false (h.2.2 (isSome_of_reached passed)) hs ?_ again).after
          (Locks.spares_request.trans Locks.spares_withdraw)
        exact single'.set ((single' key).withdraw owner)
      · exact ⟨⟨held, stands.request, h⟩, hs, single', Locks.spares_request⟩
  | release key k ih =>
    exact (ih h hs (single.set ((single key).release owner)) stands.release).after
      Locks.spares_release
  | probe key mode k ih => exact ih _ (h _) hs single stands
  | pause due sign k ih =>
    simp only [Call.run]
    split
    · exact ih h.2 hs single stands
    · cases sign' : sign s with
      | some s' => exact ih h.2 (h.1 s s' hs sign') single stands
      | none => exact ⟨⟨held, stands, h⟩, hs, single, .refl owner ls⟩

/-- **Parts of a stretch climb**: the rest of an interrupted call does, from where it stands. -/
theorem Call.Climbs.runFor {c : Call σ α} (n : Nat) (h : c.Climbs inv ret held) (hs : inv s)
    (single : ls.Single) (stands : ls.Stands owner held Locks.asksNothing) :
    let r := c.runFor owner m n s ls
    Climbed inv ret owner ls (.waiting (.turn r.1), r.2) := by
  induction n generalizing c held s ls with
  | zero => exact ⟨⟨held, stands, h⟩, hs, single, .refl owner ls⟩
  | succ n ih =>
    cases c with
    | done a => exact ⟨⟨held, stands, h⟩, hs, single, .refl owner ls⟩
    | look k => exact ih (h m s hs) hs single stands
    | save s' k => exact ih h.2 h.1 single stands
    | acquire key mode patience k =>
      simp only [Call.runFor]
      split
      · next served =>
        exact (ih h.2.1 hs (single.request h stands) (stands.served single h served)).after
          Locks.spares_request
      · exact ⟨⟨held, stands, h⟩, hs, single, .refl owner ls⟩
    | release key k =>
      have h : k.Climbs inv ret (held.filter fun k => k ≠ key) := h
      exact (ih h hs (single.set ((single key).release owner)) stands.release).after
        Locks.spares_release
    | probe key mode k => exact ih (h _) hs single stands
    | pause due sign k => exact ⟨⟨held, stands, h⟩, hs, single, .refl owner ls⟩

/-- What a call goes on with when its wait is over: it climbs from where it stands. -/
structure ClimbsOn (inv : σ → Prop) (ret : List Key → α → Prop) (owner : Owner) (ls : Locks)
    (go : Call σ α × σ × Locks) : Prop where
  /-- it climbs -/
  climbs : ∃ held, go.2.2.Stands owner held Locks.asksNothing ∧ go.1.Climbs inv ret held
  /-- the invariant holds -/
  inv : inv go.2.1
  /-- nobody is in a row twice -/
  single : go.2.2.Single
  /-- the others stand where they stood -/
  spares : Locks.Spares owner ls go.2.2

/-- Where a wait is over the call climbs on, with the lock or without. -/
theorem Wait.climbs_over {w : Wait σ α} {go : Call σ α × σ × Locks}
    (h : w.call.Climbs inv ret held) (hs : inv s) (single : ls.Single)
    (stands : ls.Stands owner held w.asks) (isOver : w.Over owner m s ls go) :
    ClimbsOn inv ret owner ls go := by
  cases isOver with
  | turn c => exact ⟨⟨held, stands, h⟩, hs, single, .refl owner ls⟩
  | granted patience k has => exact ⟨⟨_, stands.got single has, h.2.1⟩, hs, single, .refl owner ls⟩
  | gaveUp k not passed =>
    exact ⟨⟨held, stands.withdraw not, h.2.2 (isSome_of_reached passed)⟩, hs,
      single.set ((single _).withdraw owner), Locks.spares_withdraw⟩
  | come sign k passed => exact ⟨⟨held, stands, h.2⟩, hs, single, .refl owner ls⟩
  | signed k found => exact ⟨⟨held, stands, h.2⟩, h.1 s _ hs found, single, .refl owner ls⟩

theorem ClimbsOn.run {go : Call σ α × σ × Locks} (h : ClimbsOn inv ret owner ls go) :
    Climbed inv ret owner ls (go.1.run owner m go.2.1 go.2.2) := by
  obtain ⟨⟨held, stands, climbs⟩, hs, single, spares⟩ := h
  exact (climbs.run hs single stands).after spares

theorem ClimbsOn.runFor {go : Call σ α × σ × Locks} (h : ClimbsOn inv ret owner ls go) (n : Nat) :
    let r := go.1.runFor owner m n go.2.1 go.2.2
    Climbed inv ret owner ls (.waiting (.turn r.1), r.2) := by
  obtain ⟨⟨held, stands, climbs⟩, hs, single, spares⟩ := h
  exact (climbs.runFor n hs single stands).after spares

/-! ## Histories of calls that climb -/

/-- A party all of whose calls climb, and leave no lock behind. -/
def Climber (inv : σ → Prop) (call : Call σ α) (again : α → Option (Call σ α)) : Prop :=
  call.Ascends inv [] ∧ ∀ a c, again a = some c → c.Ascends inv []

/-- Such a party in flight. -/
structure Flight.Climbs (inv : σ → Prop) (f : Flight σ α) (ls : Locks) : Prop where
  /-- its call climbs from where it stands -/
  waits : ∃ held, ls.Stands f.owner held f.wait.asks ∧
    f.wait.call.Climbs inv (fun held _ => held = []) held
  /-- so does whatever it goes on with -/
  next : ∀ a c, f.again a = some c → c.Ascends inv []

/-- A party still climbs after a stretch, wherever it is in flight. -/
theorem Climbed.after_stretch {f g : Flight σ α} {r : Stop σ α × σ × Locks}
    (climbed : Climbed inv (fun held (_ : α) => held = []) f.owner ls r)
    (next : ∀ a c, f.again a = some c → c.Ascends inv []) (mem : g ∈ f.after r.1) :
    g.Climbs inv r.2.2 := by
  obtain ⟨stop, s', ls'⟩ := r
  cases stop with
  | waiting w =>
    obtain rfl := List.mem_singleton.1 mem
    exact ⟨climbed.ends, next⟩
  | returned a =>
    obtain ⟨c, hc, rfl⟩ := List.mem_map.1 mem
    obtain ⟨held, stands, rfl⟩ := climbed.ends
    exact ⟨⟨[], stands, next a c (Option.mem_toList.1 hc)⟩, next⟩

namespace Traffic

variable {Entry : Call σ α → (α → Option (Call σ α)) → Prop} {t u : Traffic σ α}

/-- All calls in flight climb. -/
structure Climbing (inv : σ → Prop) (t : Traffic σ α) : Prop where
  /-- what calls count on holds -/
  shared : inv t.shared
  /-- nobody is in a row twice -/
  single : t.locks.Single
  /-- nobody is in flight twice -/
  owners : (t.flights.map Flight.owner).Nodup
  /-- whoever enters next is somebody else -/
  known : ∀ f ∈ t.flights, f.owner < t.nextOwner
  /-- and is in no row yet -/
  rows : ∀ owner key mode, (owner, mode) ∈ (t.locks.get key).row → owner < t.nextOwner
  /-- every party in flight climbs -/
  flights : ∀ f ∈ t.flights, f.Climbs inv t.locks

theorem climbing_start {origin : Int} (hs : inv s) :
    (start origin s : Traffic σ α).Climbing inv :=
  ⟨hs, Locks.single_empty, List.nodup_nil, fun _ h => absurd h List.not_mem_nil,
    fun _ _ _ h => absurd h List.not_mem_nil, fun _ h => absurd h List.not_mem_nil⟩

/-- While one party goes on the others climb. -/
theorem Climbing.others {f : Flight σ α} {rest : List (Flight σ α)} (h : t.Climbing inv)
    (perm : t.flights.Perm (f :: rest)) (spares : Locks.Spares f.owner t.locks ls') :
    ∀ g ∈ rest, g.Climbs inv ls' := by
  intro g hg
  obtain ⟨⟨held, stands, climbs⟩, next⟩ := h.flights g (perm.mem_iff.2 (List.mem_cons_of_mem _ hg))
  exact ⟨⟨held, stands.spared spares (owner_ne_of_perm perm h.owners hg), climbs⟩, next⟩

/-- While one party goes on nobody new comes to be in a row. -/
theorem Climbing.rows_spared {f : Flight σ α} (h : t.Climbing inv) (hf : f ∈ t.flights)
    (spares : Locks.Spares f.owner t.locks ls') (owner : Owner) (key : Key) (mode : Mode)
    (here : (owner, mode) ∈ (ls'.get key).row) : owner < t.nextOwner := by
  by_cases own : owner = f.owner
  · exact own ▸ h.known f hf
  · exact h.rows owner key mode (spares.row owner key mode own here)

/-- **Going on**: one party goes on to the end of a stretch, while the others wait. -/
theorem Climbing.goOn {f : Flight σ α} {rest : List (Flight σ α)} {r : Stop σ α × σ × Locks}
    (h : t.Climbing inv) (perm : t.flights.Perm (f :: rest))
    (climbed : Climbed inv (fun held (_ : α) => held = []) f.owner t.locks r)
    (shared : u.shared = r.2.1) (locks : u.locks = r.2.2) (nextOwner : u.nextOwner = t.nextOwner)
    (flights : u.flights.Perm (f.after r.1 ++ rest)) : u.Climbing inv := by
  have hf : f ∈ t.flights := perm.mem_iff.2 List.mem_cons_self
  have apart := Flight.nodup_after (((perm.map _).nodup_iff).1 h.owners) r.1
  refine ⟨shared ▸ climbed.inv, locks ▸ climbed.single, ((flights.map _).nodup_iff).2 apart,
    fun g hg => ?_, ?_, fun g hg => ?_⟩
  · rw [nextOwner]
    rcases List.mem_append.1 (flights.mem_iff.1 hg) with own | other
    · exact Flight.owner_of_after own ▸ h.known f hf
    · exact h.known g (perm.mem_iff.2 (List.mem_cons_of_mem _ other))
  · rw [locks, nextOwner]
    exact h.rows_spared hf climbed.spares
  · rw [locks]
    rcases List.mem_append.1 (flights.mem_iff.1 hg) with own | other
    · exact climbed.after_stretch (h.flights f hf).next own
    · exact h.others perm climbed.spares g other

/-- **Moves climb.** -/
theorem Move.climbing (entry : ∀ {call again}, Entry call again → Climber inv call again)
    (move : Move Entry t u) (h : t.Climbing inv) : u.Climbing inv := by
  cases move with
  | @goOn earlier later f go split isOver =>
    have perm := perm_of_split split
    obtain ⟨held, stands, climbs⟩ := (h.flights f (perm.mem_iff.2 List.mem_cons_self)).waits
    have run := (Wait.climbs_over climbs h.shared h.single stands isOver).run (m := t.clock)
    exact h.goOn perm run (shared_resume ..) (locks_resume ..) (nextOwner_resume ..)
      (flights_resume ..)
  | elapse _ => exact ⟨h.shared, h.single, h.owners, h.known, h.rows, h.flights⟩
  | @enter call again he =>
    have climber := entry he
    -- the new party is in no row yet
    have stands : t.locks.Stands t.nextOwner [] Locks.asksNothing :=
      ⟨fun key mode here => absurd (h.rows _ key mode here) (Nat.lt_irrefl _),
        fun key mode here =>
          absurd (h.rows _ key mode (List.mem_append_right _ here)) (Nat.lt_irrefl _)⟩
    refine ⟨h.shared, h.single, nodup_enterAgain call again h.known h.owners,
      owner_lt_enterAgain call again h.known,
      fun o key mode here => Nat.lt_succ_of_lt (h.rows o key mode here), fun g hg => ?_⟩
    rcases List.mem_append.1 hg with hg | hg
    · exact h.flights g hg
    · obtain rfl := List.mem_singleton.1 hg
      exact ⟨⟨[], stands, climber.1⟩, climber.2⟩

/-- **Fine moves climb.** -/
theorem FineMove.climbing (entry : ∀ {call again}, Entry call again → Climber inv call again)
    (move : FineMove Entry t u) (h : t.Climbing inv) : u.Climbing inv := by
  cases move with
  | whole move => exact move.climbing entry h
  | @part earlier later f go n split isOver rests =>
    have perm := perm_of_split split
    obtain ⟨held, stands, climbs⟩ := (h.flights f (perm.mem_iff.2 List.mem_cons_self)).waits
    have run := (Wait.climbs_over climbs h.shared h.single stands isOver).runFor (m := t.clock) n
    exact h.goOn perm run rfl rfl rfl List.perm_append_comm

/-! ## Who waits for whom -/

/-- A party waits for a lock, which it does not have yet. -/
def Awaits (t : Traffic σ α) (owner : Owner) (key : Key) : Prop :=
  ∃ f ∈ t.flights, f.owner = owner ∧
    ∃ mode, f.wait.asks key mode ∧ (owner, mode) ∉ (t.locks.get key).holders

/-- One party waits for a lock that another one has, or asked for earlier. -/
def WaitsFor (t : Traffic σ α) (owner other : Owner) : Prop :=
  ∃ key, t.Awaits owner key ∧
    ((∃ mode, (other, mode) ∈ (t.locks.get key).holders) ∨
      (t.locks.get key).AskedBefore other owner)

/-- A party waits for one lock at a time. -/
theorem Climbing.awaits_unique {key' : Key} (h : t.Climbing inv) (waits : t.Awaits owner key)
    (waits' : t.Awaits owner key') : key' = key := by
  obtain ⟨f, hf, rfl, mode, asks, -⟩ := waits
  obtain ⟨g, hg, same, mode', asks', -⟩ := waits'
  obtain rfl := List.inj_on_of_nodup_map h.owners hg hf same
  exact (Wait.asks_unique asks asks').1

/-- **Whoever is in the way is above.** If a party waits for another one that waits too, the
other one waits for a later lock, or for the same lock further to the front. -/
theorem Climbing.above {other : Owner} {key' : Key} (h : t.Climbing inv)
    (waits : t.WaitsFor owner other) (too : t.Awaits other key') :
    ∃ key, t.Awaits owner key ∧ (key.Before key' ∨ (key = key' ∧
      (t.locks.get key).place other < (t.locks.get key).place owner)) := by
  obtain ⟨key, awaits, inTheWay⟩ := waits
  refine ⟨key, awaits, ?_⟩
  obtain ⟨f, hf, rfl, mode, asks, not⟩ := too
  obtain ⟨⟨held, stands, climbs⟩, -⟩ := h.flights f hf
  rcases inTheWay with ⟨mode', has⟩ | earlier
  · rcases stands.row key mode' (List.mem_append_left _ has) with has' | asks'
    · exact .inl (Wait.before_of_asks climbs asks key has')
    · obtain ⟨rfl, rfl⟩ := Wait.asks_unique asks asks'
      exact absurd has not
  · have asks' : ∃ mode', f.wait.asks key mode' := by
      obtain ⟨before, after, mode', -, queue, -⟩ := earlier
      refine ⟨mode', stands.queue key mode' ?_⟩
      rw [queue]
      exact List.mem_append_right _ List.mem_cons_self
    obtain ⟨mode', asks'⟩ := asks'
    obtain ⟨rfl, -⟩ := Wait.asks_unique asks asks'
    exact .inr ⟨rfl, earlier.place_lt (h.single key)⟩

/-- However many are in between. -/
theorem Climbing.all_above {other : Owner} {key' : Key} (h : t.Climbing inv)
    (waits : Relation.TransGen t.WaitsFor owner other) (too : t.Awaits other key') :
    ∃ key, t.Awaits owner key ∧ (key.Before key' ∨ (key = key' ∧
      (t.locks.get key).place other < (t.locks.get key).place owner)) := by
  induction waits generalizing key' with
  | single waits => exact h.above waits too
  | tail _ waits ih =>
    obtain ⟨key₁, too₁, above⟩ := h.above waits too
    obtain ⟨key, too, above'⟩ := ih too₁
    refine ⟨key, too, ?_⟩
    rcases above, above' with ⟨lt | ⟨rfl, lt⟩, lt' | ⟨rfl, lt'⟩⟩
    · exact .inl (lt'.trans lt)
    · exact .inl lt
    · exact .inl lt'
    · exact .inr ⟨rfl, Nat.lt_trans lt lt'⟩

/-- **Nobody waits in a circle.** -/
theorem Climbing.acyclic (h : t.Climbing inv) (owner : Owner) :
    ¬ Relation.TransGen t.WaitsFor owner owner := by
  intro circle
  obtain ⟨_, ⟨key, awaits, -⟩, -⟩ := Relation.TransGen.head'_iff.1 circle
  obtain ⟨key', awaits', above⟩ := h.all_above circle awaits
  obtain rfl := h.awaits_unique awaits awaits'
  rcases above with lt | ⟨-, lt⟩
  · exact Key.Before.irrefl lt
  · exact Nat.lt_irrefl _ lt

end Traffic

end Tenure
