import Tenure.Traffic
import Tenure.Proofs.Exclusion

/-!
# Conduct of calls

What can be said of a call that others run beside, from the text of the call alone.

A `Conduct` says what calls may count on: an invariant of the shared state, and what the
others may do to the state while one of them waits that holds some keys exclusively. A
call *meets* a conduct (`Call.Meets`) if each of its changes is within those rules, seen
from everybody who holds none of its keys, and if from any state that the others may have
left it in each of its stretches ends as promised: `wait` for a stretch that ends in a
wait, `ret` for one that ends with the answer. Both compare the state at the start of the
stretch with that at its end, so a promise is about what happens without interruption.

`Call.Meets` is a weakest precondition, so it goes through a call part by part
(`meets_bind`), and `Call.Meets.run` says that stretches keep what it promises.
-/

namespace Tenure

variable {σ α β : Type}

/-! ## Time -/

/-- A later reading of the same clocks, or the same one. -/
def Moment.Before (m m' : Moment) : Prop := m.origin = m'.origin ∧ m.elapsed ≤ m'.elapsed

theorem Moment.Before.refl (m : Moment) : m.Before m := ⟨rfl, Nat.le_refl _⟩

theorem Moment.Before.trans {m₁ m₂ m₃ : Moment} (h : m₁.Before m₂) (h' : m₂.Before m₃) :
    m₁.Before m₃ := ⟨h.1.trans h'.1, Nat.le_trans h.2 h'.2⟩

/-! ## Rules -/

/-- What calls on a shared state may count on. -/
structure Conduct (σ : Type) where
  /-- what holds of the state whenever a call goes on -/
  inv : σ → Prop
  /-- what others may do to the state while a party waits that holds `held` exclusively -/
  rely : (held : List Key) → σ → σ → Prop
  /-- they may do nothing -/
  rely_refl : ∀ held s, rely held s s
  /-- they may do one thing after another -/
  rely_trans : ∀ {held s s' s''}, rely held s s' → rely held s' s'' → rely held s s''

namespace Conduct

variable (C : Conduct σ)

/-- A change that a party may make which holds `held` exclusively. -/
def Permits (held : List Key) (s s' : σ) : Prop :=
  C.inv s' ∧ ∀ held', Locks.Apart held held' → C.rely held' s s'

/-- How a call may find things that had to ask for something: at once, or later in a
stretch of its own. -/
inductive Resumes (held : List Key) (m : Moment) (s₀ s : σ) : Moment → σ → σ → Prop where
  /-- there was no wait -/
  | atOnce : Resumes held m s₀ s m s₀ s
  /-- others went on in between -/
  | later {m' : Moment} {s' : σ} (time : m.Before m') (others : C.rely held s s')
      (inv : C.inv s') : Resumes held m s₀ s m' s' s'

theorem Permits.refl {held : List Key} {s : σ} (inv : C.inv s) : C.Permits held s s :=
  ⟨inv, fun held' _ => C.rely_refl held' s⟩

variable {C}

theorem Resumes.before {held : List Key} {m m' : Moment} {s₀ s s₀' s' : σ}
    (h : C.Resumes held m s₀ s m' s₀' s') : m.Before m' := by
  cases h with
  | atOnce => exact .refl m
  | later time => exact time

end Conduct

/-! ## Meeting them -/

namespace Call

variable (C : Conduct σ) (wait : Moment → σ → σ → Prop)

/-- From the state `s` on, in a stretch that began in `s₀`, the call keeps to the rules
and its stretches end as `wait` and `ret` say. `held` is what it holds exclusively. -/
def Meets (ret : List Key → Moment → σ → σ → α → Prop) :
    Call σ α → (held : List Key) → Moment → (s₀ s : σ) → Prop
  | done a, held, m, s₀, s => ret held m s₀ s a
  | look k, held, m, s₀, s => (k m s).Meets ret held m s₀ s
  | save s' k, held, m, s₀, s => C.Permits held s s' ∧ k.Meets ret held m s₀ s'
  | acquire key mode patience k, held, m, s₀, s =>
    wait m s₀ s ∧ ∀ m' s₀' s', C.Resumes held m s₀ s m' s₀' s' →
      (k true).Meets ret (Locks.gained mode key held) m' s₀' s' ∧
        (patience.isSome = true → (k false).Meets ret held m' s₀' s')
  | release key k, held, m, s₀, s => k.Meets ret (held.filter fun k => k ≠ key) m s₀ s
  | probe _ _ k, held, m, s₀, s => ∀ b, (k b).Meets ret held m s₀ s
  | pause _ sign k, held, m, s₀, s =>
    wait m s₀ s ∧ ∀ m' s₀' s', C.Resumes held m s₀ s m' s₀' s' →
      k.Meets ret held m' s₀' s' ∧
        ∀ s'', sign s' = some s'' → C.Permits held s' s'' ∧ k.Meets ret held m' s₀' s''

variable {C wait} {ret ret' : List Key → Moment → σ → σ → α → Prop} {held : List Key}
  {m : Moment} {s₀ s : σ}

/-- **Part by part.** A call of two parts meets a conduct if its first part does, up to
whatever the second part needs. -/
theorem meets_bind {ret : List Key → Moment → σ → σ → β → Prop} {c : Call σ α}
    {f : α → Call σ β} :
    (c.bind f).Meets C wait ret held m s₀ s ↔
      c.Meets C wait (fun held m s₀ s a => (f a).Meets C wait ret held m s₀ s) held m s₀ s := by
  induction c generalizing held m s₀ s with
  | done a => exact Iff.rfl
  | look k ih => exact ih m s
  | save s' k ih => exact and_congr_right fun _ => ih
  | acquire key mode patience k ih =>
    refine and_congr_right fun _ => forall_congr' fun m' => forall_congr' fun s₀' =>
      forall_congr' fun s' => forall_congr' fun _ => ?_
    exact and_congr (ih true) (forall_congr' fun _ => ih false)
  | release key k ih => exact ih
  | probe key mode k ih => exact forall_congr' fun b => ih b
  | pause due sign k ih =>
    refine and_congr_right fun _ => forall_congr' fun m' => forall_congr' fun s₀' =>
      forall_congr' fun s' => forall_congr' fun _ => ?_
    exact and_congr ih (forall_congr' fun s'' => forall_congr' fun _ => and_congr_right fun _ => ih)

/-- A call promises less as well. -/
theorem Meets.mono {wait' : Moment → σ → σ → Prop} {c : Call σ α}
    (hwait : ∀ m s₀ s, wait m s₀ s → wait' m s₀ s)
    (hret : ∀ held m s₀ s a, ret held m s₀ s a → ret' held m s₀ s a)
    (h : c.Meets C wait ret held m s₀ s) : c.Meets C wait' ret' held m s₀ s := by
  induction c generalizing held m s₀ s with
  | done a => exact hret _ _ _ _ _ h
  | look k ih => exact ih m s h
  | save s' k ih => exact ⟨h.1, ih h.2⟩
  | acquire key mode patience k ih =>
    refine ⟨hwait _ _ _ h.1, fun m' s₀' s' hr => ?_⟩
    obtain ⟨got, late⟩ := h.2 m' s₀' s' hr
    exact ⟨ih true got, fun hp => ih false (late hp)⟩
  | release key k ih => exact ih h
  | probe key mode k ih => exact fun b => ih b (h b)
  | pause due sign k ih =>
    refine ⟨hwait _ _ _ h.1, fun m' s₀' s' hr => ?_⟩
    obtain ⟨on, taken⟩ := h.2 m' s₀' s' hr
    exact ⟨ih on, fun s'' hs => ⟨(taken s'' hs).1, ih (taken s'' hs).2⟩⟩

/-- **Lasting knowledge.** What nobody can undo, the call itself included, still holds at
the start of the stretch in which it answers. -/
theorem Meets.knowing {c : Call σ α} {J : σ → Prop}
    (lasting : ∀ held s s', J s → C.rely held s s' → J s')
    (h : c.Meets C wait ret held m s₀ s) (h₀ : J s₀) (hs : J s) :
    c.Meets C wait (fun held m s₀ s a => ret held m s₀ s a ∧ J s₀) held m s₀ s := by
  have permitted : ∀ {held s s'}, C.Permits held s s' → J s → J s' :=
    fun hp hJ => lasting [] _ _ hJ (hp.2 [] fun _ _ => List.not_mem_nil)
  have resumed : ∀ {held m s₀ s m' s₀' s'}, C.Resumes held m s₀ s m' s₀' s' → J s₀ → J s →
      J s₀' ∧ J s' := by
    intro held m s₀ s m' s₀' s' hr h₀ hs
    cases hr with
    | atOnce => exact ⟨h₀, hs⟩
    | later _ others _ => exact ⟨lasting _ _ _ hs others, lasting _ _ _ hs others⟩
  induction c generalizing held m s₀ s with
  | done a => exact ⟨h, h₀⟩
  | look k ih => exact ih m s h h₀ hs
  | save s' k ih => exact ⟨h.1, ih h.2 h₀ (permitted h.1 hs)⟩
  | acquire key mode patience k ih =>
    refine ⟨h.1, fun m' s₀' s' hr => ?_⟩
    obtain ⟨got, late⟩ := h.2 m' s₀' s' hr
    obtain ⟨h₀', hs'⟩ := resumed hr h₀ hs
    exact ⟨ih true got h₀' hs', fun hp => ih false (late hp) h₀' hs'⟩
  | release key k ih => exact ih h h₀ hs
  | probe key mode k ih => exact fun b => ih b (h b) h₀ hs
  | pause due sign k ih =>
    refine ⟨h.1, fun m' s₀' s' hr => ?_⟩
    obtain ⟨on, taken⟩ := h.2 m' s₀' s' hr
    obtain ⟨h₀', hs'⟩ := resumed hr h₀ hs
    refine ⟨ih on h₀' hs', fun s'' hss => ?_⟩
    exact ⟨(taken s'' hss).1, ih (taken s'' hss).2 h₀' (permitted (taken s'' hss).1 hs')⟩

/-! ### Single effects -/

theorem meets_now {ret : List Key → Moment → σ → σ → Int → Prop} :
    (now : Call σ Int).Meets C wait ret held m s₀ s ↔ ret held m s₀ s m.stamp := Iff.rfl

theorem meets_modify {ret : List Key → Moment → σ → σ → Unit → Prop} {f : σ → σ} :
    (modify f).Meets C wait ret held m s₀ s ↔ C.Permits held s (f s) ∧ ret held m s₀ (f s) () :=
  Iff.rfl

theorem meets_update {f : Int → σ → α × σ} :
    (update f).Meets C wait ret held m s₀ s ↔
      C.Permits held s (f m.stamp s).2 ∧ ret held m s₀ (f m.stamp s).2 (f m.stamp s).1 :=
  Iff.rfl

/-! ### Work under a lock -/

/-- Work under an exclusive lock that may come too late. -/
theorem meets_holdingUntil {key : Key} {due : Nat} {late body : Call σ α}
    (hwait : wait m s₀ s)
    (hbody : ∀ m' s₀' s', C.Resumes held m s₀ s m' s₀' s' →
      body.Meets C wait (fun held => ret (held.filter fun k => k ≠ key)) (key :: held) m' s₀' s')
    (hlate : ∀ m' s₀' s', C.Resumes held m s₀ s m' s₀' s' →
      late.Meets C wait ret held m' s₀' s') :
    (holdingUntil key due late body).Meets C wait ret held m s₀ s := by
  refine ⟨hwait, fun m' s₀' s' hr => ⟨?_, fun _ => hlate m' s₀' s' hr⟩⟩
  change (body.bind fun a => release key (done a)).Meets C wait ret (key :: held) m' s₀' s'
  exact meets_bind.2 (hbody m' s₀' s' hr)

/-- Work under a lock, for which the call waits as long as it takes. -/
theorem meets_holding {key : Key} {mode : Mode} {body : Call σ α} (hwait : wait m s₀ s)
    (hbody : ∀ m' s₀' s', C.Resumes held m s₀ s m' s₀' s' →
      body.Meets C wait (fun held => ret (held.filter fun k => k ≠ key))
        (Locks.gained mode key held) m' s₀' s') :
    (holding key mode body).Meets C wait ret held m s₀ s := by
  refine ⟨hwait, fun m' s₀' s' hr => ⟨?_, fun h => absurd h (by simp)⟩⟩
  change (body.bind fun a => release key (done a)).Meets C wait ret
    (Locks.gained mode key held) m' s₀' s'
  exact meets_bind.2 (hbody m' s₀' s' hr)

/-! ### Onlookers -/

/-- A call that takes locks, gives them back, looks and waits, and changes nothing. -/
def Idle : Call σ α → Prop
  | done _ => True
  | look k => ∀ m s, (k m s).Idle
  | save _ _ => False
  | acquire _ _ _ k => ∀ b, (k b).Idle
  | release _ k => k.Idle
  | probe _ _ k => ∀ b, (k b).Idle
  | pause _ sign k => (∀ s s', sign s = some s' → s' = s) ∧ k.Idle

/-- One look after another is a look. -/
theorem Idle.bind {c : Call σ α} {f : α → Call σ β} (h : c.Idle)
    (hf : ∀ a, (f a).Idle) : (c.bind f).Idle := by
  induction c with
  | done a => exact hf a
  | look k ih => exact fun m s => ih m s (h m s)
  | save s k ih => exact h.elim
  | acquire key mode patience k ih => exact fun b => ih b (h b)
  | release key k ih => exact ih h
  | probe key mode k ih => exact fun b => ih b (h b)
  | pause due sign k ih => exact ⟨h.1, ih h.2⟩

/-- Onlookers meet every conduct under which nothing happens. -/
theorem Idle.meets {c : Call σ α} (h : c.Idle) (hwait : ∀ m s, wait m s s)
    (hret : ∀ held m' s a, m.Before m' → C.inv s → ret held m' s s a) (hinv : C.inv s) :
    c.Meets C wait ret held m s s := by
  have resumed : ∀ {held m s m' s₀' s'}, C.inv s → C.Resumes held m s s m' s₀' s' →
      s₀' = s' ∧ C.inv s' := by
    intro held m s m' s₀' s' hi hr
    cases hr with
    | atOnce => exact ⟨rfl, hi⟩
    | later _ _ inv => exact ⟨rfl, inv⟩
  induction c generalizing held m s with
  | done a => exact hret held m s a (.refl m) hinv
  | look k ih => exact ih m s (h m s) hret hinv
  | save s' k ih => exact h.elim
  | acquire key mode patience k ih =>
    refine ⟨hwait m s, fun m' s₀' s' hr => ?_⟩
    obtain ⟨rfl, inv⟩ := resumed hinv hr
    have hret' := fun held m'' s a (ht : m'.Before m'') => hret held m'' s a (hr.before.trans ht)
    exact ⟨ih true (h true) hret' inv, fun _ => ih false (h false) hret' inv⟩
  | release key k ih => exact ih h hret hinv
  | probe key mode k ih => exact fun b => ih b (h b) hret hinv
  | pause due sign k ih =>
    refine ⟨hwait m s, fun m' s₀' s' hr => ?_⟩
    obtain ⟨rfl, inv⟩ := resumed hinv hr
    have hret' := fun held m'' s a (ht : m'.Before m'') => hret held m'' s a (hr.before.trans ht)
    refine ⟨ih h.2 hret' inv, fun s'' hs => ?_⟩
    obtain rfl := h.1 _ _ hs
    exact ⟨.refl C inv, ih h.2 hret' inv⟩

end Call

/-! ## Stretches keep the rules -/

/-- What a call that waits may go on with. -/
def Wait.Meets (C : Conduct σ) (wait : Moment → σ → σ → Prop)
    (ret : List Key → Moment → σ → σ → α → Prop) (held : List Key) (m : Moment) (s : σ)
    (w : Wait σ α) : Prop :=
  ∀ m' s', m.Before m' → C.rely held s s' → C.inv s' →
    match w with
    | .turn c => c.Meets C wait ret held m' s' s'
    | .lock key mode patience k =>
      (k true).Meets C wait ret (Locks.gained mode key held) m' s' s' ∧
        (patience.isSome = true → (k false).Meets C wait ret held m' s' s')
    | .pause _ sign k =>
      k.Meets C wait ret held m' s' s' ∧
        ∀ s'', sign s' = some s'' → C.Permits held s' s'' ∧ k.Meets C wait ret held m' s' s''

variable {C : Conduct σ} {wait : Moment → σ → σ → Prop}
  {ret : List Key → Moment → σ → σ → α → Prop} {owner : Owner} {held : List Key} {m : Moment}
  {s₀ s : σ} {ls : Locks}

/-- A wait may go on after whatever the others do. -/
theorem Wait.Meets.later {w : Wait σ α} (h : w.Meets C wait ret held m s) {m' : Moment} {s' : σ}
    (time : m.Before m') (others : C.rely held s s') : w.Meets C wait ret held m' s' :=
  fun m'' s'' ht ho hi => h m'' s'' (time.trans ht) (C.rely_trans others ho) hi

/-- How the locks and the state look to the others after a stretch of `owner`: they keep
what they hold, and what happened is what they reckon with. -/
def Undisturbed (C : Conduct σ) (owner : Owner) (s : σ) (ls : Locks) (s' : σ) (ls' : Locks) :
    Prop :=
  ∀ other held, other ≠ owner → ls.Grants other held → ls'.Grants other held ∧ C.rely held s s'

theorem Undisturbed.refl : Undisturbed C owner s ls s ls := fun _ held _ h => ⟨h, C.rely_refl held s⟩

theorem Undisturbed.trans {s' s'' : σ} {ls' ls'' : Locks} (h : Undisturbed C owner s ls s' ls')
    (h' : Undisturbed C owner s' ls' s'' ls'') : Undisturbed C owner s ls s'' ls'' := by
  intro other held ne hg
  obtain ⟨hg', hr⟩ := h other held ne hg
  obtain ⟨hg'', hr'⟩ := h' other held ne hg'
  exact ⟨hg'', C.rely_trans hr hr'⟩

/-- A change of the locks alone, under which the others keep what they hold. -/
theorem Undisturbed.ofLocks {ls' : Locks}
    (h : ∀ other held, other ≠ owner → ls.Grants other held → ls'.Grants other held) :
    Undisturbed C owner s ls s ls' :=
  fun other held ne hg => ⟨h other held ne hg, C.rely_refl held s⟩

/-- A change that the rules permit, seen by the others: nobody else holds a key of the
one who makes it. -/
theorem Undisturbed.ofPermits {s' : σ} (proper : ls.Proper) (grants : ls.Grants owner held)
    (h : C.Permits held s s') : Undisturbed C owner s ls s' ls :=
  fun _ held' ne hg => ⟨hg, h.2 held' (grants.apart proper hg ne)⟩

/-- What a stretch of `owner` leaves behind. -/
structure Leaves (C : Conduct σ) (wait : Moment → σ → σ → Prop)
    (ret : List Key → Moment → σ → σ → α → Prop) (owner : Owner) (m : Moment) (s₀ s : σ)
    (ls : Locks) (r : Stop σ α × σ × Locks) : Prop where
  /-- the stretch ends as promised -/
  ends :
    match r.1 with
    | .returned a => ∃ held, ret held m s₀ r.2.1 a
    | .waiting w =>
      wait m s₀ r.2.1 ∧ ∃ held, r.2.2.Grants owner held ∧ w.Meets C wait ret held m r.2.1
  /-- the invariant holds -/
  inv : C.inv r.2.1
  /-- exclusive holders are alone -/
  proper : r.2.2.Proper
  /-- the others see nothing that they do not reckon with -/
  others : Undisturbed C owner s ls r.2.1 r.2.2

/-- A stretch may begin with something that the others reckon with. -/
theorem Leaves.after {s' : σ} {ls' : Locks} {r : Stop σ α × σ × Locks}
    (h : Leaves C wait ret owner m s₀ s' ls' r) (first : Undisturbed C owner s ls s' ls') :
    Leaves C wait ret owner m s₀ s ls r :=
  ⟨h.ends, h.inv, h.proper, first.trans h.others⟩

/-- Only a wait with a deadline can be over because of it. -/
theorem isSome_of_reached {due : Option Nat} {elapsed : Nat} (h : reached due elapsed = true) :
    due.isSome = true := by
  cases due with
  | none => cases h
  | some due => rfl

/-- **Stretches keep the rules.** A call that meets a conduct leaves its stretch as
promised, wherever that ends. -/
theorem Call.Meets.run {c : Call σ α} (h : c.Meets C wait ret held m s₀ s) (inv : C.inv s)
    (proper : ls.Proper) (grants : ls.Grants owner held) :
    Leaves C wait ret owner m s₀ s ls (c.run owner m s ls) := by
  induction c generalizing held s ls with
  | done a => exact ⟨⟨held, h⟩, inv, proper, .refl⟩
  | look k ih => exact ih m s h inv proper grants
  | save s' k ih =>
    exact (ih h.2 h.1.1 proper grants).after (.ofPermits proper grants h.1)
  | acquire key mode patience k ih =>
    have asked : ∀ other held, other ≠ owner → ls.Grants other held →
        (ls.request owner key mode).2.Grants other held := fun _ _ _ hg => hg.request owner key mode
    obtain ⟨hw, hk⟩ := h
    obtain ⟨got, late⟩ := hk m s₀ s .atOnce
    simp only [Call.run]
    split
    · next served =>
      exact (ih true got inv (proper.request owner key mode) (grants.request_served served)).after
        (.ofLocks asked)
    · split
      · next hr =>
        -- the call gives up at once, so it had a deadline
        have patient := isSome_of_reached hr
        refine (ih false (late patient) inv ((proper.request owner key mode).withdraw owner key)
          ((grants.request owner key mode).withdraw owner key)).after (.ofLocks ?_)
        exact fun other held ne hg => (asked other held ne hg).withdraw owner key
      · refine ⟨⟨hw, held, grants.request owner key mode, ?_⟩, inv, proper.request owner key mode,
          .ofLocks asked⟩
        exact fun m' s' ht ho hi => hk m' s' s' (.later ht ho hi)
  | release key k ih =>
    refine (ih h inv (proper.release owner key) (grants.release key)).after (.ofLocks ?_)
    exact fun other held ne hg => hg.release_of_ne ne key
  | probe key mode k ih => exact ih _ (h _) inv proper grants
  | pause due sign k ih =>
    obtain ⟨hw, hk⟩ := h
    obtain ⟨on, taken⟩ := hk m s₀ s .atOnce
    simp only [Call.run]
    split
    · exact ih on inv proper grants
    · cases hs : sign s with
      | some s' =>
        obtain ⟨permitted, onward⟩ := taken s' hs
        exact (ih onward permitted.1 proper grants).after (.ofPermits proper grants permitted)
      | none =>
        refine ⟨⟨hw, held, grants, ?_⟩, inv, proper, .refl⟩
        exact fun m' s' ht ho hi => hk m' s' s' (.later ht ho hi)

end Tenure
