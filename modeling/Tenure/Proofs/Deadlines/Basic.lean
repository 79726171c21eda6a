import Tenure.Proofs.Waiting

/-!
# Calls with a deadline

A call *hastens* (`Call.Hastens`) if all its waits have one deadline together: it wants some
locks, asks for each of them exclusively after all that come before it, and once it has missed
one or has given one back it asks for no more. The last thing that it does is to answer, and what
it answers may depend on the lock that it has missed.

`Call.attempts` lists what comes of asking for locks, with all locks as they are when that is
decided. A stretch of a call that hastens ends in a wait only before the deadline, and what is
missed in it is missed at the deadline, when everything that comes before it was obtained and
somebody else is in the way (`Call.Hastens.run`).
-/

namespace Tenure

variable {σ α β : Type}

/-! ## Attempts -/

/-- What came of asking for a lock. -/
structure Attempt where
  /-- the lock -/
  key : Key
  /-- how it was to be held -/
  mode : Mode
  /-- whether it was obtained -/
  got : Bool
  /-- all locks, when that is decided -/
  locks : Locks

/-- What comes of asking for locks, until the call answers or has to wait. -/
def Call.attempts (owner : Owner) (now : Moment) : Call σ α → σ → Locks → List Attempt
  | done _, _, _ => []
  | look k, s, ls => (k now s).attempts owner now s ls
  | save s k, _, ls => k.attempts owner now s ls
  | acquire key mode patience k, s, ls =>
    let r := ls.request owner key mode
    if r.1 then ⟨key, mode, true, ls⟩ :: (k true).attempts owner now s r.2
    else if reached patience now.elapsed then
      ⟨key, mode, false, ls⟩ :: (k false).attempts owner now s (r.2.withdraw owner key)
    else []
  | release key k, s, ls => k.attempts owner now s (ls.release owner key)
  | probe key mode k, s, ls => (k ((ls.get key).ready mode)).attempts owner now s ls
  | pause due sign k, s, ls =>
    if reached due now.elapsed then k.attempts owner now s ls
    else
      match sign s with
      | some s => k.attempts owner now s ls
      | none => []

/-- What comes of the wait before. -/
def Wait.attempts (owner : Owner) (ls : Locks) : Wait σ α → List Attempt
  | lock key mode _ _ => [⟨key, mode, (ls.get key).heldBy owner mode, ls⟩]
  | _ => []

/-! ## Locks that somebody else has -/

namespace Lock

variable {l : Lock} {owner other : Owner} {mode mode' : Mode}

/-- Where nobody waits in vain and somebody is in the row, somebody has the lock. -/
theorem Served.taken (h : l.Served) (busy : l.row ≠ [])
    (alone : ∀ mode, (owner, mode) ∉ l.holders) :
    ∃ other mode, other ≠ owner ∧ (other, mode) ∈ l.holders := by
  cases holders : l.holders with
  | nil => simp [row, holders, h holders] at busy
  | cons x rest =>
    refine ⟨x.1, x.2, ?_, List.mem_cons_self⟩
    rintro rfl
    exact alone x.2 (holders ▸ List.mem_cons_self)

/-- Nobody can have a lock alone that somebody has. -/
theorem not_ready_of_holder (has : (other, mode) ∈ l.holders) : l.ready .exclusive = false := by
  have some : l.holders ≠ [] := List.ne_nil_of_mem has
  simp [ready, roomFor, some]

/-- A lock that nobody has or waits for can be had. -/
theorem ready_of_row (free : l.row = []) : l.ready mode = true := by
  obtain ⟨holders, queue⟩ := List.append_eq_nil_iff.1 free
  cases mode <;> simp [ready, roomFor, holders, queue]

theorem request_fst : (l.request owner mode).1 = l.ready mode := by
  simp only [request]
  split
  · next ready => exact ready.symm
  · next busy => exact (Bool.eq_false_iff.2 busy).symm

end Lock

namespace Locks

variable {ls ls' : Locks} {owner other : Owner} {key : Key} {mode : Mode} {held : List Key}
  {asks : Key → Mode → Prop}

/-- What a party has, and where it is in a row. -/
structure Has (ls : Locks) (owner : Owner) (held : List Key) (asks : Key → Mode → Prop) : Prop where
  /-- it has some locks exclusively -/
  grants : ls.Grants owner held
  /-- it is in no other rows than theirs, except for what it asks -/
  row : ∀ key mode, (owner, mode) ∈ (ls.get key).row → key ∈ held ∨ asks key mode
  /-- it is in the row for what it asks -/
  asked : ∀ key mode, asks key mode → (owner, mode) ∈ (ls.get key).row

/-- Whoever is in no row has nothing. -/
theorem has_nil (new : ∀ key mode, (owner, mode) ∉ (ls.get key).row) :
    ls.Has owner [] asksNothing :=
  ⟨grants_nil, fun key mode here => absurd here (new key mode), fun _ _ h => h.elim⟩

/-- Asking leads to the end of one row. -/
theorem row_get_request (key' : Key) : ((ls.request owner key mode).2.get key').row =
    if key' = key then (ls.get key).row ++ [(owner, mode)] else (ls.get key').row := by
  simp only [request, get_set]
  split
  · exact Lock.row_request
  · rfl

theorem Has.request (h : ls.Has owner held asksNothing) :
    (ls.request owner key mode).2.Has owner held fun k m => k = key ∧ m = mode := by
  refine ⟨h.grants.request owner key mode, fun key' mode' here => ?_, ?_⟩
  · rw [row_get_request] at here
    split at here
    · next same =>
      subst same
      rw [List.mem_append, List.mem_singleton] at here
      exact here.imp (fun here => (h.row _ _ here).resolve_right id)
        fun last => ⟨rfl, congrArg Prod.snd last⟩
    · exact .inl ((h.row _ _ here).resolve_right id)
  · rintro key' mode' ⟨rfl, rfl⟩
    rw [row_get_request, if_pos rfl]
    exact List.mem_append_right _ (List.mem_singleton.2 rfl)

/-- Whoever has what it asked for has one lock more. -/
theorem Has.got (h : ls.Has owner held fun k m => k = key ∧ m = .exclusive)
    (has : (owner, .exclusive) ∈ (ls.get key).holders) :
    ls.Has owner (key :: held) asksNothing := by
  have grants := h.grants.gained has
  refine ⟨grants, fun key' mode' here => ?_, fun _ _ h => h.elim⟩
  rcases h.row key' mode' here with here | ⟨rfl, -⟩
  · exact .inl (List.mem_cons_of_mem _ here)
  · exact .inl List.mem_cons_self

/-! ### While others go on -/

/-- If a party keeps what it has and its places in all rows, it has what it had. -/
theorem Has.congr (h : ls.Has owner held asks) (grants : ls'.Grants owner held)
    (same : ∀ key mode, (owner, mode) ∈ (ls'.get key).row ↔ (owner, mode) ∈ (ls.get key).row) :
    ls'.Has owner held asks :=
  ⟨grants, fun key mode here => h.row key mode ((same key mode).1 here),
    fun key mode ask => (same key mode).2 (h.asked key mode ask)⟩

/-- The places of a party in the row of a lock. -/
def places (ls : Locks) (owner : Owner) (key : Key) : List (Owner × Mode) :=
  (ls.get key).row.filter fun h => h.1 = owner

theorem mem_places : (owner, mode) ∈ ls.places owner key ↔ (owner, mode) ∈ (ls.get key).row :=
  List.mem_filter.trans (and_iff_left (decide_eq_true rfl))

theorem places_set {l : Lock} (key' : Key) : (ls.set key l).places owner key' =
    if key' = key then l.row.filter fun h => h.1 = owner else ls.places owner key' := by
  simp only [places, get_set]
  split <;> rfl

/-- **A stretch of somebody else** leaves a party its places. -/
theorem places_stretch (ne : owner ≠ other) {w : Wait σ α} {m : Moment} {s : σ}
    {go : Call σ α × σ × Locks} (isOver : w.Over other m s ls go) :
    (go.1.run other m go.2.1 go.2.2).2.2.places owner = ls.places owner := by
  have kept : ∀ {ls' : Locks} {key l}, (l.row.filter fun h => h.1 = owner) = ls'.places owner key →
      ls'.places owner = ls.places owner → (ls'.set key l).places owner = ls.places owner := by
    intro ls' key l same h
    rw [← h]
    funext key'
    rw [places_set]
    split
    · next here => rw [here, same]
    · rfl
  have apart : ∀ row : List (Owner × Mode),
      ((row.filter fun h => h.1 ≠ other).filter fun h => h.1 = owner) =
        row.filter fun h => h.1 = owner := by
    intro row
    rw [List.filter_filter]
    refine List.filter_congr fun h _ => ?_
    by_cases own : h.1 = owner
    · simp [own, ne]
    · simp [own]
  have withdraw : ∀ (ls' : Locks) key, ls'.places owner = ls.places owner →
      (ls'.withdraw other key).places owner = ls.places owner := by
    intro ls' key
    refine kept ?_
    rw [Lock.row_withdraw, List.filter_append, apart, ← List.filter_append]
    rfl
  refine go.1.run_locks (P := fun ls' => ls'.places owner = ls.places owner)
    (fun ls' key mode => kept ?_) (fun ls' key => kept ?_) withdraw go.2.1
    (Wait.over_locks withdraw isOver rfl)
  · rw [Lock.row_request, List.filter_append]
    simp [places, ne.symm]
  · rw [Lock.row_release, List.filter_append, apart, ← List.filter_append]
    rfl

/-- So it leaves the party what it has. -/
theorem Has.stretch (h : ls.Has owner held asks) (ne : owner ≠ other) {w : Wait σ α} {m : Moment}
    {s : σ} {go : Call σ α × σ × Locks} (isOver : w.Over other m s ls go) :
    (go.1.run other m go.2.1 go.2.2).2.2.Has owner held asks := by
  have withdraw : ∀ (ls : Locks) key, ls.Grants owner held →
      (ls.withdraw other key).Grants owner held := fun ls key grants => grants.withdraw other key
  have grants := go.1.run_locks (m := m) (fun ls key mode grants => grants.request other key mode)
    (fun ls key grants => grants.release_of_ne ne key) withdraw go.2.1
    (Wait.over_locks withdraw isOver h.grants)
  refine h.congr grants fun key mode => ?_
  rw [← mem_places, ← mem_places, places_stretch ne isOver]

end Locks

/-! ## Hastening -/

/-- How far a call has come with its locks. -/
inductive Stage where
  /-- it has some of them, the last one first -/
  | taking (held : List Key)
  /-- it asks for no more, and has missed one or none -/
  | leaving (missed : Option Key)

/-- The lock that was missed. -/
def Stage.missed : Stage → Option Key
  | taking _ => none
  | leaving missed => missed

/-- What is held at a stage. -/
def Stage.Fits (owner : Owner) (ls : Locks) : Stage → Prop
  | taking held => ls.Has owner held Locks.asksNothing
  | leaving _ => True

/-- A lock is the next one of those that a call wants. -/
structure Key.NextOf (wants held : List Key) (key : Key) : Prop where
  /-- it wants it -/
  wanted : key ∈ wants
  /-- it does not have it yet -/
  new : key ∉ held
  /-- it has whatever it wants before -/
  before : ∀ k ∈ wants, k.Before key → k ∈ held

namespace Call

variable (due : Nat) (wants : List Key)

/-- The call asks for the locks that it wants one after the other, waits for them until `due`, and
asks for no more after it has missed one or has given one back. It ends as `ret` says. -/
def Hastens (ret : Stage → Moment → σ → α → Prop) : Call σ α → Stage → Moment → σ → Prop
  | done a, stage, m, s => ret stage m s a
  | look k, stage, m, s => (k m s).Hastens ret stage m s
  | save s' k, stage, m, _ => k.Hastens ret stage m s'
  | acquire key mode patience k, stage, _, _ =>
    ∃ held, stage = .taking held ∧ mode = .exclusive ∧ patience = some due ∧
      key.NextOf wants held ∧ ∀ m' s', m'.elapsed ≤ due →
        (k true).Hastens ret (.taking (key :: held)) m' s' ∧
        (k false).Hastens ret (.leaving (some key)) m' s'
  | release _ k, stage, m, s => k.Hastens ret (.leaving stage.missed) m s
  | probe _ _ k, stage, m, s => ∀ b, (k b).Hastens ret stage m s
  | pause _ _ _, _, _, _ => False

variable {due wants} {ret : Stage → Moment → σ → α → Prop} {stage : Stage} {m : Moment} {s : σ}

/-- **Part by part.** -/
theorem hastens_bind {ret : Stage → Moment → σ → β → Prop} {c : Call σ α} {f : α → Call σ β} :
    (c.bind f).Hastens due wants ret stage m s ↔
      c.Hastens due wants (fun stage m s a => (f a).Hastens due wants ret stage m s) stage m s := by
  induction c generalizing stage m s with
  | done a => exact Iff.rfl
  | look k ih => exact ih m s
  | save s' k ih => exact ih
  | acquire key mode patience k ih =>
    refine exists_congr fun held => and_congr_right fun _ => and_congr_right fun _ =>
      and_congr_right fun _ => and_congr_right fun _ => forall_congr' fun m' =>
        forall_congr' fun s' => forall_congr' fun _ => ?_
    exact and_congr (ih true) (ih false)
  | release key k ih => exact ih
  | probe key mode k ih => exact forall_congr' fun b => ih b
  | pause due sign k ih => exact Iff.rfl

/-- Work under a lock that may come too late. -/
theorem hastens_holdingUntil {key : Key} {held : List Key} {late body : Call σ α}
    (next : key.NextOf wants held)
    (hbody : ∀ m s, m.elapsed ≤ due → body.Hastens due wants
      (fun stage => ret (.leaving stage.missed)) (.taking (key :: held)) m s)
    (hlate : ∀ m s, m.elapsed ≤ due → late.Hastens due wants ret (.leaving (some key)) m s) :
    (holdingUntil key due late body).Hastens due wants ret (.taking held) m s := by
  refine ⟨held, rfl, rfl, rfl, next, fun m s soon => ⟨?_, hlate m s soon⟩⟩
  change (body.bind fun a => release key (done a)).Hastens due wants ret _ m s
  exact hastens_bind.2 (hbody m s soon)

end Call

/-- What a call that waits for a lock may go on with. -/
inductive Wait.Hastens (due : Nat) (wants : List Key) (ret : Stage → Moment → σ → α → Prop)
    (owner : Owner) (ls : Locks) : Wait σ α → Prop where
  /-- it waits for the next lock -/
  | lock {key : Key} {held : List Key} {k : Bool → Call σ α} (next : key.NextOf wants held)
    (has : ls.Has owner held fun k m => k = key ∧ m = .exclusive)
    (on : ∀ m s, m.elapsed ≤ due →
      (k true).Hastens due wants ret (.taking (key :: held)) m s ∧
      (k false).Hastens due wants ret (.leaving (some key)) m s) :
    Hastens due wants ret owner ls (.lock key .exclusive (some due) k)

/-! ## Stretches of a call that hastens -/

/-- What is to be said of an attempt at a lock, of which a party wants several until `due`. -/
structure Attempt.Fair (x : Attempt) (due : Nat) (wants : List Key) (owner : Owner) (m : Moment) :
    Prop where
  /-- a lock that can be had is obtained -/
  free : (x.locks.get x.key).ready x.mode = true → x.got = true
  /-- none is missed but at the deadline -/
  last : x.got = false → m.elapsed = due
  /-- it is one that is wanted -/
  wanted : x.key ∈ wants
  /-- whatever is wanted before it has been obtained -/
  before : ∀ k ∈ wants, k.Before x.key → (x.locks.get k).heldBy owner .exclusive = true
  /-- if it is missed somebody else has it -/
  taken : x.got = false → ∃ other mode, other ≠ owner ∧ (other, mode) ∈ (x.locks.get x.key).holders

variable {due : Nat} {wants : List Key} {ret : Stage → Moment → σ → α → Prop} {owner : Owner}
  {m : Moment} {s : σ} {ls : Locks} {stage stage' : Stage} {xs ys : List Attempt}

/-- A lock that is wanted and comes next may be obtained. -/
theorem Attempt.fair_of_got {x : Attempt} (got : x.got = true) (wanted : x.key ∈ wants)
    (before : ∀ k ∈ wants, k.Before x.key → (x.locks.get k).heldBy owner .exclusive = true) :
    x.Fair due wants owner m := by
  have here : x.got ≠ false := by rw [got]; exact Bool.noConfusion
  exact ⟨fun _ => got, fun missed => absurd missed here, wanted, before,
    fun missed => absurd missed here⟩

/-- From one stage to another one was missed what these attempts have missed. -/
def Stage.Misses (xs : List Attempt) (stage stage' : Stage) : Prop :=
  ∀ key, stage'.missed = some key ↔
    stage.missed = some key ∨ ∃ x ∈ xs, x.got = false ∧ x.key = key

theorem Stage.Misses.refl (stage : Stage) : stage.Misses [] stage := fun _ =>
  ⟨.inl, fun h => h.resolve_right fun ⟨_, hx, _⟩ => absurd hx List.not_mem_nil⟩

theorem Stage.Misses.trans {stage'' : Stage} (h : stage.Misses xs stage')
    (h' : stage'.Misses ys stage'') : stage.Misses (xs ++ ys) stage'' := by
  intro key
  rw [h' key, h key, or_assoc]
  simp only [List.mem_append, or_and_right, exists_or]

/-- What a stretch of a call that hastens leaves behind, with the attempts in it. -/
structure Hastened (due : Nat) (wants : List Key) (ret : Stage → Moment → σ → α → Prop)
    (owner : Owner) (m : Moment) (stage : Stage) (r : Stop σ α × σ × Locks) (xs : List Attempt) :
    Prop where
  /-- the call has ended, or it waits, before the deadline -/
  ends : match r.1 with
    | .returned a => ∃ stage', stage.Misses xs stage' ∧ ret stage' m r.2.1 a
    | .waiting w => m.elapsed < due ∧ w.Hastens due wants ret owner r.2.2
  /-- its attempts -/
  fair : ∀ x ∈ xs, x.Fair due wants owner m

theorem Hastened.cons {r : Stop σ α × σ × Locks} (h : Hastened due wants ret owner m stage' r ys)
    (fair : ∀ x ∈ xs, x.Fair due wants owner m) (misses : stage.Misses xs stage') :
    Hastened due wants ret owner m stage r (xs ++ ys) := by
  refine ⟨?_, fun x hx => (List.mem_append.1 hx).elim (fair x) (h.fair x)⟩
  have ends := h.ends
  split at ends
  · obtain ⟨stage'', misses', did⟩ := ends
    exact ⟨stage'', misses.trans misses', did⟩
  · exact ends

/-- Whatever comes before the next lock is held. -/
theorem Key.NextOf.heldBy {key : Key} {held : List Key} (next : key.NextOf wants held)
    (grants : ls.Grants owner held) :
    ∀ k ∈ wants, k.Before key → (ls.get k).heldBy owner .exclusive = true :=
  fun k wanted before => decide_eq_true (grants k (next.before k wanted before))

/-- One lock was obtained, or missed. -/
theorem Stage.misses_attempt {held : List Key} {key : Key} {mode : Mode} {ls : Locks} :
    (taking held).Misses [⟨key, mode, true, ls⟩] (taking (key :: held)) ∧
      (taking held).Misses [⟨key, mode, false, ls⟩] (leaving (some key)) := by
  constructor <;> intro key' <;> simp [missed]

/-- **Stretches hasten.** -/
theorem Call.Hastens.run {c : Call σ α} (h : c.Hastens due wants ret stage m s)
    (onTime : m.elapsed ≤ due) (served : ls.Served) (fits : stage.Fits owner ls) :
    Hastened due wants ret owner m stage (c.run owner m s ls) (c.attempts owner m s ls) := by
  induction c generalizing stage s ls with
  | done a => exact ⟨⟨stage, .refl stage, h⟩, fun x hx => absurd hx List.not_mem_nil⟩
  | look k ih => exact ih m s h served fits
  | save s' k ih => exact ih h served fits
  | acquire key mode patience k ih =>
    obtain ⟨held, rfl, rfl, rfl, next, on⟩ := h
    have fits : ls.Has owner held Locks.asksNothing := fits
    obtain ⟨got, late⟩ := on m s onTime
    have ask : (ls.request owner key .exclusive).1 = (ls.get key).ready .exclusive :=
      Lock.request_fst
    have served' : (ls.request owner key .exclusive).2.Served :=
      served.set ((served key).request owner .exclusive)
    simp only [Call.run, Call.attempts]
    split
    · next ready =>
      have has : (owner, .exclusive) ∈ ((ls.request owner key .exclusive).2.get key).holders := by
        simp only [Locks.request, Locks.get_set, if_pos]
        exact Lock.mem_holders_of_served ready
      have fits' : (Stage.taking (key :: held)).Fits owner (ls.request owner key .exclusive).2 :=
        fits.request.got has
      have fair : ∀ x ∈ [Attempt.mk key .exclusive true ls], x.Fair due wants owner m := by
        intro x hx
        obtain rfl := List.mem_singleton.1 hx
        exact Attempt.fair_of_got rfl next.wanted (next.heldBy fits.grants)
      exact (ih true got served' fits').cons fair Stage.misses_attempt.1
    · next busy =>
      rw [ask, Bool.not_eq_true] at busy
      split
      · next passed =>
        have withdrawn : ((ls.request owner key .exclusive).2.withdraw owner key).Served :=
          served'.set (Lock.served_promoted _ _)
        have fair : ∀ x ∈ [Attempt.mk key .exclusive false ls], x.Fair due wants owner m := by
          intro x hx
          obtain rfl := List.mem_singleton.1 hx
          refine ⟨fun ready => ?_, fun _ => ?_, next.wanted, next.heldBy fits.grants, fun _ => ?_⟩
          · rw [busy] at ready
            cases ready
          · exact Nat.le_antisymm onTime (by simpa [reached] using passed)
          · refine (served key).taken (fun free => ?_) fun mode here => ?_
            · rw [Lock.ready_of_row free] at busy
              cases busy
            · exact next.new ((fits.row key mode (List.mem_append_left _ here)).resolve_right id)
        exact (ih false late withdrawn trivial).cons fair Stage.misses_attempt.2
      · next early =>
        have early : m.elapsed < due := by simpa [reached] using early
        exact ⟨⟨early, .lock next fits.request on⟩, fun x hx => absurd hx List.not_mem_nil⟩
  | release key k ih =>
    have released : (ls.release owner key).Served := served.set (Lock.served_promoted _ _)
    have rest := ih h released trivial
    exact ⟨rest.ends, rest.fair⟩
  | probe key mode k ih => exact ih _ (h _) served fits
  | pause due' sign k ih => exact h.elim

/-- What a call goes on with when its wait is over, with what came of the wait. -/
structure HastensOn (due : Nat) (wants : List Key) (ret : Stage → Moment → σ → α → Prop)
    (owner : Owner) (m : Moment) (go : Call σ α × σ × Locks) (xs : List Attempt) : Prop where
  /-- it hastens -/
  hastens : ∃ stage, (Stage.taking []).Misses xs stage ∧ stage.Fits owner go.2.2 ∧
    go.1.Hastens due wants ret stage m go.2.1
  /-- its attempts -/
  fair : ∀ x ∈ xs, x.Fair due wants owner m
  /-- nobody waits for a lock that nobody has -/
  served : go.2.2.Served

theorem Wait.Hastens.isOver {w : Wait σ α} {go : Call σ α × σ × Locks}
    (h : w.Hastens due wants ret owner ls) (onTime : m.elapsed ≤ due) (served : ls.Served)
    (isOver : w.Over owner m s ls go) :
    HastensOn due wants ret owner m go (w.attempts owner ls) := by
  cases h with
  | @lock key held k next has on =>
    obtain ⟨got, late⟩ := on m s onTime
    cases isOver with
    | granted patience k here =>
      have heldBy : (ls.get key).heldBy owner .exclusive = true := decide_eq_true here
      simp only [Wait.attempts, heldBy]
      refine ⟨⟨.taking (key :: held), Stage.misses_attempt.1, has.got here, got⟩, fun x hx => ?_,
        served⟩
      obtain rfl := List.mem_singleton.1 hx
      exact Attempt.fair_of_got rfl next.wanted (next.heldBy has.grants)
    | gaveUp k not passed =>
      have heldBy : (ls.get key).heldBy owner .exclusive = false := decide_eq_false not
      simp only [Wait.attempts, heldBy]
      have taken : ∃ other mode, other ≠ owner ∧ (other, mode) ∈ (ls.get key).holders := by
        refine (served key).taken (fun free => ?_) fun mode here => ?_
        · have waits := has.asked key .exclusive ⟨rfl, rfl⟩
          rw [free] at waits
          cases waits
        · rcases has.row key mode (List.mem_append_left _ here) with old | ⟨-, rfl⟩
          · exact next.new old
          · exact not here
      refine ⟨⟨.leaving (some key), Stage.misses_attempt.2, trivial, late⟩, fun x hx => ?_,
        served.set (Lock.served_promoted _ _)⟩
      obtain rfl := List.mem_singleton.1 hx
      refine ⟨fun ready => ?_, fun _ => ?_, next.wanted, next.heldBy has.grants, fun _ => taken⟩
      · obtain ⟨other, mode, -, here⟩ := taken
        rw [Lock.not_ready_of_holder here] at ready
        cases ready
      · exact Nat.le_antisymm onTime (by simpa [reached] using passed)

theorem HastensOn.run {go : Call σ α × σ × Locks} (h : HastensOn due wants ret owner m go xs)
    (onTime : m.elapsed ≤ due) :
    Hastened due wants ret owner m (.taking []) (go.1.run owner m go.2.1 go.2.2)
      (xs ++ go.1.attempts owner m go.2.1 go.2.2) := by
  obtain ⟨⟨stage, misses, fits, hastens⟩, fair, served⟩ := h
  exact (hastens.run onTime served fits).cons fair misses

end Tenure
