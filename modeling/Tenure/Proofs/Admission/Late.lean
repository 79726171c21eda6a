import Mathlib.Data.List.TakeWhile
import Tenure.Proofs.Admission.Exact

/-!
# Late clock readings

A caller may have read the clock before another caller that was faster to call. To a
limiter that is a reading earlier than one it has seen. It takes it for the latest it
has seen: every decision, and every balance, is as if each caller had brought the latest
reading up to its call (`late_readings_harmless`).
-/

namespace Tenure

open Knock

/-- Every reading replaced by the latest one up to it. -/
def caughtUp (latest : Nat) : List Nat → List Nat
  | [] => []
  | t :: readings => max latest t :: caughtUp (max latest t) readings

/-! ## Rules -/

/-- A rule by which a late reading counts as the latest one. `Like latest s s'` is to say that there
is no telling `s'`, kept where nobody was late, from `s`. -/
structure Rule.Forgives {S β : Type} (rule : Rule S) (seen : S → β) (Like : Nat → S → S → Prop) :
    Prop where
  /-- the first reading cannot be late -/
  first : ∀ now, Like now (rule.call now (rule.start now)).2 (rule.call now (rule.start now)).2
  /-- whatever the next reading is, the decision is that for the latest one -/
  decision : ∀ {latest s s'} now, Like latest s s' →
    (rule.call now s).1 = (rule.call (max latest now) s').1
  /-- and so it goes on -/
  goesOn : ∀ {latest s s'} now, Like latest s s' →
    Like (max latest now) (rule.call now s).2 (rule.call (max latest now) s').2
  /-- what is seen from outside is the same -/
  shows : ∀ {latest s s'}, Like latest s s' → seen s = seen s'

/-- What a client is told by a row of calls, if what is kept for it is seen through `seen`. -/
abbrev Rule.told {S β : Type} (rule : Rule S) (seen : S → β) (s : Option S) (calls : List Knock) :
    List (Bool × Option β) :=
  (decided rule.alone s calls).map fun d => (d.admitted, d.left.map seen)

namespace Rule.Forgives

variable {S β : Type} {rule : Rule S} {seen : S → β} {Like : Nat → S → S → Prop}

theorem told_of_like (forgives : rule.Forgives seen Like) {latest : Nat} {s s' : S}
    (like : Like latest s s') {calls calls' : List Knock}
    (caught : calls'.map time = caughtUp latest (calls.map time)) :
    rule.told seen (some s) calls = rule.told seen (some s') calls' := by
  induction calls generalizing latest s s' calls' with
  | nil =>
    obtain rfl : calls' = [] := by simpa [caughtUp] using caught
    rfl
  | cons k calls ih =>
    cases calls' with
    | nil => cases caught
    | cons k' calls' =>
      obtain ⟨now, rest⟩ := List.cons.inj caught
      have next := forgives.goesOn k.time like
      have later := ih next rest
      simp only [told, decided, alone, List.map_cons, Option.getD_some, Option.map_some, now]
        at later ⊢
      rw [forgives.decision k.time like, forgives.shows next, later]

/-- **A client that is late at times is told the same as one that never is.** -/
theorem told_eq (forgives : rule.Forgives seen Like) {calls calls' : List Knock}
    (caught : calls'.map time = caughtUp 0 (calls.map time)) :
    rule.told seen none calls = rule.told seen none calls' := by
  cases calls with
  | nil =>
    obtain rfl : calls' = [] := by simpa [caughtUp] using caught
    rfl
  | cons k calls =>
    cases calls' with
    | nil => cases caught
    | cons k' calls' =>
      obtain ⟨now, rest⟩ := List.cons.inj caught
      rw [Nat.zero_max] at now rest
      have later := forgives.told_of_like (forgives.first k.time) rest
      simp only [told, decided, alone, List.map_cons, Option.getD_none, Option.map_some, now]
        at later ⊢
      rw [later]

/-- It is enough that a late reading makes no difference to what is kept, as long as that is of the
latest reading. -/
theorem of_current (Current : Nat → S → Prop)
    (first : ∀ now, Current now (rule.call now (rule.start now)).2)
    (call : ∀ {latest now s}, Current latest s → latest ≤ now → Current now (rule.call now s).2)
    (late : ∀ {latest now s}, Current latest s → now ≤ latest →
      rule.call now s = rule.call latest s) :
    rule.Forgives seen fun latest s s' => s = s' ∧ Current latest s := by
  have same : ∀ {latest s} now, Current latest s →
      rule.call now s = rule.call (max latest now) s := by
    intro latest s now current
    rcases Nat.le_total latest now with le | le
    · rw [Nat.max_eq_right le]
    · rw [Nat.max_eq_left le, late current le]
  refine ⟨fun now => ⟨rfl, first now⟩, ?_, ?_, ?_⟩
  · rintro latest s s' now ⟨rfl, current⟩
    rw [same now current]
  · rintro latest s s' now ⟨rfl, current⟩
    rw [same now current]
    refine ⟨rfl, ?_⟩
    rcases Nat.le_total latest now with le | le
    · rw [Nat.max_eq_right le]
      exact call current le
    · rw [Nat.max_eq_left le]
      exact call current (Nat.le_refl _)
  · rintro latest s - ⟨rfl, -⟩
    rfl

/-- A rule that decides without looking forgives everything. -/
theorem of_blind (blind : ∀ now now' s s', (rule.call now s).1 = (rule.call now' s').1) :
    rule.Forgives (fun _ => ()) fun _ _ _ => True :=
  ⟨fun _ => trivial, fun _ _ => blind .., fun _ _ => trivial, fun _ => rfl⟩

end Rule.Forgives

/-! ## The three algorithms -/

/-- A bucket was last filled at the latest reading. -/
theorem Bucket.filledAt_call {R : Type} [Amount R] (capacity : UInt32) (rate : R) (now : Nat)
    (b : Bucket R) : (b.call capacity rate now).2.filledAt = max b.filledAt now := by
  rw [call, take]
  split <;> rfl

/-- A bucket takes a late reading for the one it was last filled at. -/
theorem Bucket.call_late {R : Type} [Amount R] (capacity : UInt32) (rate : R) {now : Nat}
    {b : Bucket R} (le : now ≤ b.filledAt) :
    b.call capacity rate now = b.call capacity rate b.filledAt := by
  have gap : now - b.filledAt = b.filledAt - b.filledAt := by omega
  rw [call, call, fill, fill, gap, Nat.max_eq_left le, Nat.max_self]

theorem TokenBucket.forgives {R : Type} [Amount R] (capacity : UInt32) (rate : R) :
    (TokenBucket.rule capacity rate).Forgives Bucket.tokens
      fun latest b b' => b = b' ∧ b.filledAt = latest := by
  refine .of_current _ (fun now => (Bucket.filledAt_call ..).trans (Nat.max_self now)) ?_ ?_
  · rintro - now b rfl le
    exact (Bucket.filledAt_call ..).trans (Nat.max_eq_right le)
  · rintro - now b rfl le
    exact Bucket.call_late capacity rate le

/-- The window is that of the latest reading. -/
def Window.Current (length latest : Nat) (w : Window) : Prop :=
  w.start ≤ latest ∧ latest < w.start + length

/-- A call lies in the window that goes on or in the one it opens. -/
theorem Window.current_call {length now : Nat} {w : Window} (positive : 0 < length)
    (began : w.start ≤ now) (maxRequests : UInt32) :
    (w.call maxRequests length now).2.Current length now := by
  have start : (w.call maxRequests length now).2.start =
      if length ≤ now - w.start then now else w.start := by
    simp only [Window.call]
    split <;> split <;> rfl
  simp only [Window.Current, start]
  split <;> omega

/-- A window takes a late reading for the latest one. -/
theorem Window.Current.call_late {length latest now : Nat} {w : Window}
    (current : w.Current length latest) (maxRequests : UInt32) (le : now ≤ latest) :
    w.call maxRequests length now = w.call maxRequests length latest := by
  obtain ⟨began, lasts⟩ := current
  have goesOn : ¬ length ≤ now - w.start := by omega
  have still : ¬ length ≤ latest - w.start := by omega
  rw [Window.call, Window.call, if_neg goesOn, if_neg still]

theorem FixedWindow.forgives (maxRequests : UInt32) (length : Nat) :
    ∃ Like, (FixedWindow.rule maxRequests length).Forgives (fun _ => ()) Like := by
  rcases Nat.eq_zero_or_pos length with rfl | positive
  · -- every call opens a window
    refine ⟨_, .of_blind fun now now' w w' => ?_⟩
    simp only [rule, Window.call, Nat.zero_le, if_true]
    split <;> rfl
  · refine ⟨_, .of_current (fun latest w => w.Current length latest) ?_ ?_ ?_⟩
    · exact fun now => Window.current_call positive (Nat.le_refl now) maxRequests
    · exact fun current le =>
        Window.current_call positive (Nat.le_trans current.1 le) maxRequests
    · exact fun current le => current.call_late maxRequests le

/-- The log is that of the latest reading. A client that was turned away at that reading has not been
entered with it, but then the log is full. -/
structure CallLog.Current (maxRequests : UInt32) (length latest : Nat) (log : CallLog) : Prop where
  /-- the oldest call is first -/
  sorted : log.Pairwise (· ≤ ·)
  /-- all of it is in the window -/
  within : ∀ t ∈ log, t ≤ latest ∧ latest < t + length
  /-- the latest reading is the last one, unless there is no room -/
  last : maxRequests.toNat ≤ log.length ∨ log.getLast? = some latest

/-- A call leaves a log that is of its own reading. -/
theorem CallLog.current_call {length now : Nat} {log : CallLog} (maxRequests : UInt32)
    (positive : 0 < length) (sorted : log.Pairwise (· ≤ ·)) (past : ∀ t ∈ log, t ≤ now) :
    (call maxRequests length now log).2.Current maxRequests length now := by
  have within : ∀ t ∈ log.filter fun t => now < t + length, t ≤ now ∧ now < t + length :=
    fun t ht => ⟨past t (List.mem_filter.1 ht).1, of_decide_eq_true (List.mem_filter.1 ht).2⟩
  have rest := sorted.sublist (List.filter_sublist (p := fun t => decide (now < t + length)))
  rw [call_eq positive sorted past]
  split
  · refine ⟨?_, ?_, .inr List.getLast?_concat⟩
    · refine List.pairwise_append.2 ⟨rest, List.pairwise_singleton .., fun t ht s hs => ?_⟩
      obtain rfl := List.mem_singleton.1 hs
      exact (within t ht).1
    · intro t ht
      rcases List.mem_append.1 ht with ht | ht
      · exact within t ht
      · obtain rfl := List.mem_singleton.1 ht
        omega
  · next full => exact ⟨rest, within, .inl (Nat.le_of_not_lt full)⟩

/-- A log takes a late reading for the latest one. -/
theorem CallLog.Current.call_late {maxRequests : UInt32} {length latest now : Nat} {log : CallLog}
    (current : log.Current maxRequests length latest) (positive : 0 < length) (le : now ≤ latest) :
    call maxRequests length now log = call maxRequests length latest log := by
  have all : ∀ t ≤ latest, (log.filter fun s => t < s + length) = log := fun t ht =>
    List.filter_eq_self.2 fun s hs => decide_eq_true (by have := current.within s hs; omega)
  rw [call, call, dropWhile_eq_filter positive current.sorted,
    dropWhile_eq_filter positive current.sorted, all now le, all latest (Nat.le_refl _)]
  rcases current.last with full | last
  · rw [if_neg (Nat.not_lt.2 full), if_neg (Nat.not_lt.2 full)]
  · rw [last, Option.map_some, Option.map_some, Nat.max_eq_right le, Nat.max_self,
      Option.getD_some, Option.getD_some]

theorem SlidingLog.forgives (maxRequests : UInt32) (length : Nat) :
    ∃ Like, (SlidingLog.rule maxRequests length).Forgives (fun _ => ()) Like := by
  rcases Nat.eq_zero_or_pos length with rfl | positive
  · -- whatever was in the log has left the window
    refine ⟨_, .of_blind fun now now' log log' => ?_⟩
    have none (log : CallLog) (now : Nat) : (log.dropWhile fun t => 0 ≤ now - t) = [] :=
      List.dropWhile_eq_nil_iff.2 (by simp)
    change (CallLog.call maxRequests 0 now log).1 = (CallLog.call maxRequests 0 now' log').1
    rw [CallLog.call, CallLog.call, none, none]
    split <;> rfl
  · refine ⟨_, .of_current (fun latest log => CallLog.Current maxRequests length latest log)
      ?_ ?_ ?_⟩
    · exact fun now => CallLog.current_call maxRequests positive .nil (by simp [rule])
    · exact fun current le => CallLog.current_call maxRequests positive current.sorted
        fun t ht => Nat.le_trans (current.within t ht).1 le
    · exact fun current le => current.call_late positive le

/-! ## Limiters -/

namespace Limiter

/-- What a client is told by its calls: the decision, and the balance its bucket is left with. -/
def told (l : Limiter) (key : String) (calls : List Knock) : List (Bool × Option Float) :=
  ((decided allow l calls).filter (·.key = key)).map fun d => (d.admitted, d.left.tokens key)

/-- A client is told what it would be told if nobody else called. -/
theorem told_of {L S β : Type} {allow' : L → String → Nat → Bool × L}
    {kept : L → String → Option S} {rule : Rule S} {Is : L → Prop}
    (apart : Apart allow' kept rule Is) (wrap : L → Limiter)
    (faithful : ∀ l key now,
      allow (wrap l) key now = ((allow' l key now).1, wrap (allow' l key now).2))
    (seen : S → β) (show' : Option β → Option Float)
    (shows : ∀ l key, (wrap l).tokens key = show' ((kept l key).map seen)) {l : L} (is : Is l)
    (key : String) (calls : List Knock) :
    (wrap l).told key calls =
      (rule.told seen (kept l key) (of key calls)).map fun t => (t.1, show' t.2) := by
  rw [told, decided_map wrap faithful, Rule.told, ← apart.decided_of is, List.filter_map,
    List.map_map, List.map_map, List.map_map]
  refine List.map_congr_left fun d _ => ?_
  simp only [Function.comp_apply, Decided.map, shows]

/-- **A late clock reading is harmless.** With a limiter that has seen nobody, whatever the order in
which the clock readings of a client come and whoever else calls, the client is told what it is told
if each of its calls has the latest reading up to it. -/
theorem late_readings_harmless {l : Limiter} (unseen : l.clients = 0) {key : String}
    {calls calls' : List Knock} (caught : readings key calls' = caughtUp 0 (readings key calls)) :
    l.told key calls = l.told key calls' := by
  cases l with
  | tokenBucket l =>
    have new : l.buckets.get? key = none := Table.get?_of_size_eq_zero unseen key
    have told := told_of (TokenBucket.apart l.capacity l.rate) tokenBucket (fun _ _ _ => rfl)
      Bucket.tokens id (fun _ _ => rfl) ⟨rfl, rfl⟩ key
    rw [told, told, new, (TokenBucket.forgives l.capacity l.rate).told_eq caught]
  | fixedWindow l =>
    have new : l.windows.get? key = none := Table.get?_of_size_eq_zero unseen key
    have told := told_of (FixedWindow.apart l.maxRequests l.length) fixedWindow (fun _ _ _ => rfl)
      (fun _ => ()) (fun _ => none) (fun _ _ => rfl) ⟨rfl, rfl⟩ key
    obtain ⟨_, forgives⟩ := FixedWindow.forgives l.maxRequests l.length
    rw [told, told, new, forgives.told_eq caught]
  | slidingLog l =>
    have new : l.logs.get? key = none := Table.get?_of_size_eq_zero unseen key
    have told := told_of (SlidingLog.apart l.maxRequests l.length) slidingLog (fun _ _ _ => rfl)
      (fun _ => ()) (fun _ => none) (fun _ _ => rfl) ⟨rfl, rfl⟩ key
    obtain ⟨_, forgives⟩ := SlidingLog.forgives l.maxRequests l.length
    rw [told, told, new, forgives.told_eq caught]

/-- Ann's third caller has read the clock before the second one. -/
def annsCallers : List Knock := [⟨"Ann", 0⟩, ⟨"Ann", 12⟩, ⟨"Bob", 5⟩, ⟨"Ann", 9⟩, ⟨"Ann", 20⟩]

/-- Of two calls in ten nanoseconds Ann's late reading at 9 counts as one at 12, so it is still in the
window at 20. -/
theorem late_reading_harmless_to_ann :
    (slidingLog (.new 2 10)).clients = 0 ∧
    readings "Ann" [⟨"Ann", 0⟩, ⟨"Ann", 12⟩, ⟨"Ann", 12⟩, ⟨"Ann", 20⟩] =
      caughtUp 0 (readings "Ann" annsCallers) ∧
    (slidingLog (.new 2 10)).told "Ann" annsCallers =
      [(true, none), (true, none), (true, none), (false, none)] := by
  have caught : readings "Ann" [⟨"Ann", 0⟩, ⟨"Ann", 12⟩, ⟨"Ann", 12⟩, ⟨"Ann", 20⟩] =
      caughtUp 0 (readings "Ann" annsCallers) := rfl
  exact ⟨rfl, caught, late_readings_harmless rfl caught⟩

end Limiter

end Tenure
