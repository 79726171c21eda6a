import Tenure.Proofs.Expiries
import Tenure.Proofs.Waking

/-!
# Rounds of the reaper

Where nobody keeps a lock from it the reaper never waits for one. It either falls asleep, or
takes out what has come due, sees to all of it and begins another round
(`Reaper.run_awake`, `Reaper.unhindered_round`).

As long as this is so, no deadline is put off: every hold has its very deadline in the queue
(`Ledger.Noted`), and whatever is there is still to come (`Ledger.Current`).
-/

namespace Tenure

open Ledger

variable {s : CoordinatorSettings} {m : Moment} {l l' : Ledger} {owner : Owner} {ls : Locks}
  {now now' : Int}

/-! ## What the reaper has in hand is seen to -/

/-- The reaper sees to all that it has in hand, and puts nothing off. -/
inductive Ledger.Clears (m : Moment) : Ledger → Ledger → Prop where
  /-- nothing is left -/
  | done {l : Ledger} (hand : l.inHand = []) : Clears m l l
  /-- nobody knows the resource -/
  | unknown {l l' : Ledger} {e : Expiry} {es : List Expiry} (hand : l.inHand = e :: es)
    (unknown : l.resources.get? e.id = none) (rest : Clears m { l with inHand := es } l') :
    Clears m l l'
  /-- the hold is settled if it has lapsed -/
  | expire {l l' : Ledger} {e : Expiry} {es : List Expiry} (hand : l.inHand = e :: es)
    (rest : Clears m
      { ((l.count .lockWait).expire m.stamp e.id e.generation).2 with inHand := es } l') :
    Clears m l l'

/-- The reaper takes out what has come due, perhaps after it has taken notice of an early
deadline, and sees to it. -/
def Ledger.Clearing (m : Moment) (l l' : Ledger) : Prop :=
  ∃ l₁, (l₁ = l ∨ l₁ = { l with expiries := l.expiries.noticed }) ∧
    Clears m (l₁.takeDue m.stamp).2 l'

theorem Ledger.inUse_expire (l : Ledger) (now : Int) (id : Id) (generation : UInt64) :
    (l.expire now id generation).2.inUse = l.inUse := by
  rcases l.expire_cases now id generation with e | e <;> rw [e]
  rcases l.settle_cases now id with ⟨r, c, -, -, -, e⟩ | ⟨-, e⟩ <;> rw [e]
  rfl

/-- While the reaper sees to what it has in hand the queue stays as it is. -/
theorem Ledger.Clears.same (h : Clears m l l') :
    l'.expiries = l.expiries ∧ l'.inUse = l.inUse := by
  induction h with
  | done => exact ⟨rfl, rfl⟩
  | unknown _ _ _ ih => exact ih
  | expire _ _ ih =>
    exact ⟨ih.1.trans (fades_expire _ _ _ _).2, ih.2.trans (inUse_expire _ _ _ _)⟩

theorem Ledger.Clears.inHand (h : Clears m l l') : l'.inHand = [] := by
  induction h with
  | done hand => exact hand
  | unknown _ _ _ ih => exact ih
  | expire _ _ ih => exact ih

/-- Afterwards nothing is due. -/
theorem Ledger.Clearing.ahead (h : Clearing m l l') :
    ∀ e ∈ l'.expiries.entries, m.stamp < e.fireAt := by
  obtain ⟨l₁, -, clears⟩ := h
  intro e he
  rw [clears.same.1] at he
  exact ExpiryQueue.lt_of_mem_afterDue he

namespace Reaper

/-- The first deadline in its hand, then the others. -/
theorem handle_bind (s : CoordinatorSettings) (e : Expiry) (es : List Expiry) :
    handle s (e :: es) = (expireHold s e.id e.generation).bind fun _ => proceed s es := by
  simp only [handle, proceed, expireEach, Call.bind_eq, Call.bind_assoc, Call.modify, Call.bind]

/-- **All locks are free**, so the reaper sees to everything in one stretch. -/
theorem run_handle {es : List Expiry} (hand : l.inHand = es)
    (free : ∀ e ∈ es, ls.get (.resource e.id) = Lock.free) :
    ∃ l' ls', (handle s es).run owner m l ls = (.returned (.round true), l', ls') ∧
      Clears m l l' ∧ ∀ key, ls'.get key = ls.get key := by
  induction es generalizing l ls with
  | nil => exact ⟨l, ls, rfl, .done hand, fun _ => rfl⟩
  | cons e es ih =>
    have here := free e List.mem_cons_self
    have others : ∀ e ∈ es, ls.get (.resource e.id) = Lock.free :=
      fun e he => free e (List.mem_cons_of_mem _ he)
    rw [handle_bind, Call.run_bind]
    cases hr : l.resources.get? e.id with
    | none =>
      obtain ⟨l', ls', run, clears, same⟩ := ih (l := { l with inHand := es }) rfl others
      rw [run_expireHold_of_unknown hr]
      exact ⟨l', ls', run, .unknown hand hr clears, same⟩
    | some r =>
      obtain ⟨ls₁, attempt, same₁⟩ := run_expireHold s e.generation owner m hr here
      obtain ⟨l', ls', run, clears, same⟩ := ih
        (l := { ((l.count .lockWait).expire m.stamp e.id e.generation).2 with inHand := es }) rfl
        fun e he => (same₁ _).trans (others e he)
      rw [attempt]
      exact ⟨l', ls', run, .expire hand clears, fun key => (same key).trans (same₁ key)⟩

/-- What has come due is taken out and seen to. -/
theorem run_awake (s : CoordinatorSettings) (owner : Owner) (used : l.inUse = true)
    (free : ∀ e ∈ l.expiries.entries, e.fireAt ≤ m.stamp → ls.get (.resource e.id) = Lock.free) :
    ∃ l' ls', (awake s).run owner m l ls = (.returned (.round true), l', ls') ∧
      Clears m (l.takeDue m.stamp).2 l' ∧ ∀ key, ls'.get key = ls.get key := by
  rw [awake_eq]
  simp only [Call.run, used, if_true]
  have hand : (l.takeDue m.stamp).2.inHand = (l.takeDue m.stamp).1 := rfl
  apply run_handle hand
  intro e he
  obtain ⟨queued, come⟩ := ExpiryQueue.mem_due_iff.1 he
  exact free e queued come

/-- A round is about to begin, and nothing is due. -/
def Idle (s : CoordinatorSettings) (m : Moment) (l : Ledger) (w : Wait Ledger Reply) : Prop :=
  w = .turn (round s) ∧ ∀ e ∈ l.expiries.entries, m.stamp < e.fireAt

/-- What comes of a stretch of a reaper from which nobody keeps a lock; `w` is what it waited
for before. -/
inductive Unhindered (s : CoordinatorSettings) (m : Moment) (l : Ledger) (ls : Locks)
    (w : Wait Ledger Reply) : Stop Ledger Reply × Ledger × Locks → Prop where
  /-- it falls asleep, as nothing is due yet and nobody has left a sign -/
  | sleeps (due : Option Nat) (early : reached due m.elapsed = false)
    (calm : l.expiries.wake = false) :
    Unhindered s m l ls w (.waiting (.pause due wakeSign (awake s)), l, ls)
  /-- it sees to what is due; there was something, unless it was called by a sign -/
  | clears {l' : Ledger} {ls' : Locks} (clearing : Clearing m l l')
    (same : ∀ key, ls'.get key = ls.get key)
    (called : Idle s m l w → 0 < s.reaperIdle →
      l.expiries.wake = true ∧ l'.expiries.wake = false) :
    Unhindered s m l ls w (.returned (.round true), l', ls')

variable {w : Wait Ledger Reply} (free : ∀ e ∈ l.expiries.entries, e.fireAt ≤ m.stamp →
  ls.get (.resource e.id) = Lock.free) (used : l.inUse = true)

include free used

theorem unhindered_awake (due : Idle s m l w → s.reaperIdle = 0) :
    Unhindered s m l ls w ((awake s).run owner m l ls) := by
  obtain ⟨l', ls', run, clears, same⟩ := run_awake s owner used free
  rw [run]
  exact .clears ⟨l, .inl rfl, clears⟩ same fun idle positive =>
    absurd (due idle) (Nat.ne_of_gt positive)

theorem unhindered_noticed (called : l.expiries.wake = true) :
    Unhindered s m l ls w
      ((awake s).run owner m { l with expiries := l.expiries.noticed } ls) := by
  obtain ⟨l', ls', run, clears, same⟩ := run_awake s owner
    (l := { l with expiries := l.expiries.noticed }) used free
  rw [run]
  refine .clears ⟨_, .inr rfl, clears⟩ same fun _ _ => ⟨called, ?_⟩
  rw [clears.same.1]
  rfl

/-- **A round** that nothing keeps from anything. -/
theorem unhindered_round : Unhindered s m l ls w ((round s).run owner m l ls) := by
  rw [round_eq]
  simp only [Call.run]
  split
  · next sleeps =>
    have early : reached (some (m.elapsed + sleepFor m.stamp s.reaperIdle l.expiries))
        m.elapsed = false := by
      simp only [reached, Option.any_some, decide_eq_false_iff_not]
      omega
    simp only [Call.run, early, wakeSign]
    cases wake : l.expiries.wake with
    | false => exact .sleeps _ early wake
    | true => exact unhindered_noticed free used wake
  · next zero =>
    apply unhindered_awake free used
    rintro ⟨-, ahead⟩
    exact ExpiryQueue.eq_zero_of_sleepFor ahead (Decidable.not_not.1 zero)

/-- **A stretch of the reaper** from which nobody keeps a lock. -/
theorem At.unhindered {go : Call Ledger Reply × Ledger × Locks} (place : At s w l.inHand)
    (hand : l.inHand = []) (isOver : w.Over owner m l ls go) :
    Unhindered s m l ls w (go.1.run owner m go.2.1 go.2.2) := by
  rw [hand] at place
  cases place with
  | turn =>
    obtain ⟨⟩ := isOver
    exact unhindered_round free used
  | asleep due =>
    cases isOver with
    | come sign k passed =>
      apply unhindered_awake free used
      rintro ⟨turn, -⟩
      cases turn
    | signed k found =>
      obtain ⟨called, rfl⟩ := wakeSign_eq_some.1 found
      exact unhindered_noticed free used called

end Reaper

/-! ## Deadlines that are kept -/

namespace Ledger

/-- Every hold has its very deadline pending. -/
def Noted (l : Ledger) : Prop :=
  ∀ id r deadline, l.resources.get? id = some r → r.HeldUntil deadline →
    ⟨deadline, id, r.generation⟩ ∈ l.pending

/-- Where holds end at most, and those that last keep their deadlines. -/
theorem Noted.fades (h : l.Noted) (fades : Fades l l')
    (stay : ∀ id r deadline, l'.resources.get? id = some r → r.HeldUntil deadline →
      ⟨deadline, id, r.generation⟩ ∈ l.pending → ⟨deadline, id, r.generation⟩ ∈ l'.pending) :
    l'.Noted := by
  intro id r' deadline hr' held
  obtain ⟨r, hr, same, before⟩ := fades.known id r' hr'
  apply stay id r' deadline hr' held
  rw [same]
  exact h id r deadline hr (before deadline held)

theorem Noted.step (h : l.Noted) (step : Step m l l') : l'.Noted := by
  rcases step.fades_or_places with ⟨fades, queue, hand⟩ | ⟨id, r, hold, placed⟩
  · have same : l'.pending = l.pending := by rw [pending, queue, hand]; rfl
    exact h.fades fades fun _ _ _ _ _ noted => same ▸ noted
  · intro id' r' deadline hr' held
    apply placed.pending.mem_iff.2
    rw [placed.found] at hr'
    split at hr'
    · next same =>
      obtain rfl := Option.some.inj hr'
      obtain rfl : hold.deadline = deadline := Option.some.inj held.2
      rw [same]
      exact List.mem_cons_self
    · exact List.mem_cons_of_mem _ (h id' r' deadline hr' held)

/-- **What is seen to** are deadlines of holds that are over. -/
theorem Noted.clears (h : l.Noted) (clears : Clears m l l') (agreement : Agreement l)
    (come : ∀ e ∈ l.inHand, e.fireAt ≤ m.stamp) : l'.Noted := by
  induction clears with
  | done => exact h
  | @unknown l l' e es hand unknown rest ih =>
    have reap : Reap .standard m l { l with inHand := es } := .unknown hand unknown
    refine ih (h.fades reap.fades ?_) (reap.agreement agreement) (reap.come come)
    intro id r deadline hr _ noted
    rcases List.mem_cons.1 ((pending_of_hand hand).mem_iff.1 noted) with rfl | noted
    · rw [unknown] at hr
      cases hr
    · exact noted
  | @expire l l' e es hand rest ih =>
    have count : Reap .standard m l (l.count .lockWait) := .count (quiet_count l _)
    have reap : Reap .standard m (l.count .lockWait)
        { ((l.count .lockWait).expire m.stamp e.id e.generation).2 with inHand := es } :=
      .expire hand
    have agreement' := count.agreement agreement
    refine ih (h.fades (count.fades.trans reap.fades) ?_) (reap.agreement agreement')
      (reap.come come)
    intro id r deadline hr held noted
    have parts := (l.count .lockWait).pending_expire m.stamp hand
    rcases List.mem_cons.1 (parts.mem_iff.1 noted) with rfl | noted
    · -- its hold would have been settled
      have late := come _ (hand ▸ List.mem_cons_self)
      have early := agreement'.lt_of_expire hr rfl held
      exact absurd early (Int.not_lt.2 late)
    · exact noted

/-- **A reaper that clears** what is due keeps every other deadline. -/
theorem Noted.clearing (h : l.Noted) (clearing : Clearing m l l') (agreement : Agreement l)
    (free : l.inHand = []) : l'.Noted ∧ l'.inHand = [] ∧ l'.inUse = l.inUse := by
  obtain ⟨l₁, before, clears⟩ := clearing
  have first : l₁.Noted ∧ Agreement l₁ ∧ l₁.inHand = [] ∧ l₁.inUse = l.inUse := by
    rcases before with rfl | rfl
    · exact ⟨h, agreement, free, rfl⟩
    · exact ⟨h, agreement.congr rfl rfl rfl, free, rfl⟩
  obtain ⟨h, agreement, free, used⟩ := first
  have reap : Reap .standard m l₁ (l₁.takeDue m.stamp).2 := .take free
  have noted : (l₁.takeDue m.stamp).2.Noted :=
    h.fades reap.fades fun _ _ _ _ _ noted => (pending_takeDue free).mem_iff.2 noted
  refine ⟨?_, clears.inHand, clears.same.2.trans used⟩
  exact noted.clears clears (reap.agreement agreement) fun e he =>
    (ExpiryQueue.mem_due_iff.1 he).2

/-! ## The invariant -/

/-- The reaper is up to date. -/
structure Current (now : Int) (l : Ledger) : Prop where
  /-- it has nothing in hand -/
  free : l.inHand = []
  /-- it goes on -/
  used : l.inUse = true
  /-- every hold has its very deadline pending -/
  noted : l.Noted
  /-- no deadline has been passed -/
  ahead : ∀ e ∈ l.expiries.entries, now ≤ e.fireAt

/-- A hold is never kept beyond its deadline. -/
theorem Current.le_deadline (h : Current now l) {id : Id} {r : Resource} {deadline : Int}
    (hr : l.resources.get? id = some r) (held : r.HeldUntil deadline) :
    ⟨deadline, id, r.generation⟩ ∈ l.expiries.entries ∧ now ≤ deadline := by
  have noted := h.noted id r deadline hr held
  rw [pending, h.free, List.append_nil] at noted
  exact ⟨noted, h.ahead _ noted⟩

/-- Requests and sweeps use the queue to enter deadlines that are still to come. -/
theorem Step.scheduled (h : Step m l l') :
    l'.expiries = l.expiries ∨
      ∃ e, m.stamp ≤ e.fireAt ∧ l'.expiries = l.expiries.schedule e := by
  cases h with
  | count quiet =>
    obtain ⟨x, rfl⟩ := quiet
    exact .inl rfl
  | hold holder millis price =>
    exact .inr ⟨_, Stamp.le_later (Int.natCast_nonneg millis) m.stamp_le_latest, rfl⟩
  | book books => exact .inl books.expiries
  | @giveUp booking b =>
    exact .inl (giveUpAll_keeps (f := Ledger.expiries) (fun _ _ => rfl) b.id b.resources l)
  | _ => exact .inl rfl

theorem Current.step (h : Current m.stamp l) (step : Step m l l') : Current m.stamp l' := by
  refine ⟨step.inHand.trans h.free, step.inUse.trans h.used, h.noted.step step, ?_⟩
  intro e he
  rcases step.scheduled with same | ⟨e', later, queue⟩
  · exact h.ahead e (same ▸ he)
  · rw [queue] at he
    rcases mem_insertBy.1 he with rfl | he
    · exact later
    · exact h.ahead e he

/-- **Requests and sweeps** leave the reaper up to date. -/
theorem Current.steps (h : Current m.stamp l) (steps : Steps m l l') : Current m.stamp l' :=
  steps.keeps (fun step h => h.step step) h

/-- **So does the reaper** that clears what is due. -/
theorem Current.clearing (h : Current m.stamp l) (clearing : Clearing m l l')
    (agreement : Agreement l) : Current m.stamp l' := by
  obtain ⟨noted, hand, used⟩ := h.noted.clearing clearing agreement h.free
  refine ⟨hand, used.trans h.used, noted, fun e he => ?_⟩
  exact Int.le_of_lt (clearing.ahead e he)

end Ledger

end Tenure
