import Tenure.Proofs.Admission.Rate

/-!
# Denied calls are free

A denied call does change what is kept for its client: a bucket is filled up to its time, a log is
cut. But it is the same for every later call whether it was made or not (`Rule.Forgiving`): what
comes into a bucket comes in for good, what has left a window has left it for any later one, and a
window that was opened has room.

So two rows of calls, one of them with denied calls of a client left out, stay alike for that client
from call to call (`Apart.decisions_thinned`), and a client that keeps calling while it is turned
away is neither held up nor let in by that (`denials_free`).
-/

namespace Tenure

universe u

/-! ## Leaving calls out -/

/-- Calls are left out of a row, of one client's only denied ones. -/
inductive Thinned {L : Type u} (key : String) : List (Decided L) → List (Decided L) → Prop where
  /-- the empty row -/
  | nil : Thinned key [] []
  /-- a call stays -/
  | keep {row rest : List (Decided L)} (d : Decided L) (thinned : Thinned key row rest) :
    Thinned key (d :: row) (d :: rest)
  /-- a call is left out -/
  | drop {row rest : List (Decided L)} (d : Decided L)
    (denied : d.key = key → d.admitted = false) (thinned : Thinned key row rest) :
    Thinned key (d :: row) rest

/-- Calls can be left out by any rule that spares the admitted ones. -/
theorem Thinned.filter {L : Type u} {key : String} {row : List (Decided L)}
    (stays : Decided L → Bool)
    (denied : ∀ d ∈ row, stays d = false → d.key = key → d.admitted = false) :
    Thinned key row (row.filter stays) := by
  induction row with
  | nil => exact .nil
  | cons d row ih =>
    have tail := ih fun e he => denied e (List.mem_cons_of_mem _ he)
    cases h : stays d with
    | true =>
      rw [List.filter_cons_of_pos h]
      exact .keep d tail
    | false =>
      rw [List.filter_cons_of_neg (by simp [h])]
      exact .drop d (denied d List.mem_cons_self h) tail

namespace Knock

variable {L : Type u}

/-- A client's calls in a row and whether each was admitted. -/
def decisions (key : String) (row : List (Decided L)) : List (Knock × Bool) :=
  (row.filter (·.key = key)).map fun d => (d.toKnock, d.admitted)

theorem decisions_cons_own (k : Knock) (admitted : Bool) (left : L) (row : List (Decided L)) :
    decisions k.key (⟨k, admitted, left⟩ :: row) = (k, admitted) :: decisions k.key row := by
  rw [decisions, List.filter_cons_of_pos (by simp), List.map_cons, decisions]

theorem decisions_cons_ne {key : String} {d : Decided L} {row : List (Decided L)}
    (ne : d.key ≠ key) : decisions key (d :: row) = decisions key row := by
  rw [decisions, List.filter_cons_of_neg (by simpa using ne), decisions]

/-- Whichever denied calls of a client are left out, its other calls are decided as before. -/
def DenialsFree (allow : L → String → Nat → Bool × L) (l : L) (key : String) (calls : List Knock) :
    Prop :=
  ∀ rest, Thinned key (decided allow l calls) rest →
    decisions key (decided allow l (rest.map Decided.toKnock)) = decisions key rest

end Knock

open Knock

/-! ## Rules that do not hold a call against its client -/

/-- A denied call is the same to every later one as if it had not been made. -/
def Rule.Forgiving {S : Type} (rule : Rule S) : Prop :=
  ∀ {kept : Option S} {key : String} {now later : Nat}, (rule.alone kept key now).1 = false →
    now ≤ later → rule.alone (rule.alone kept key now).2 key later = rule.alone kept key later

section

variable {L : Type} {S : Type} {allow : L → String → Nat → Bool × L} {kept : L → String → Option S}
  {rule : Rule S} {Is : L → Prop}

/-- **Denied calls can be left out.** Two limiters that are the same to all the calls to come of a
client decide alike, if denied calls are left out for the second. -/
theorem Apart.decisions_thinned (apart : Apart allow kept rule Is) (forgiving : rule.Forgiving)
    {key : String} {calls : List Knock} (forward : (readings key calls).Pairwise (· ≤ ·)) {l l' : L}
    (is : Is l) (is' : Is l') (alike : ∀ now ∈ readings key calls,
      rule.alone (kept l key) key now = rule.alone (kept l' key) key now)
    {rest : List (Decided L)} (thinned : Thinned key (decided allow l calls) rest) :
    decisions key (decided allow l' (rest.map Decided.toKnock)) = decisions key rest := by
  induction calls generalizing l l' rest with
  | nil =>
    cases thinned
    rfl
  | cons k calls ih =>
    have stays := apart.stays k.key k.time is
    have stays' := apart.stays k.key k.time is'
    have keeps := apart.keeps k.key key k.time is
    have keeps' := apart.keeps k.key key k.time is'
    by_cases own : k.key = key
    · subst own
      rw [readings, of_cons, if_pos rfl, List.map_cons] at forward alike
      obtain ⟨past, forward⟩ := List.pairwise_cons.1 forward
      have same := alike k.time List.mem_cons_self
      rw [if_pos rfl] at keeps keeps'
      cases thinned with
      | keep _ thinned =>
        -- the same call has the same decision and leaves the same
        have agree : (allow l' k.key k.time).1 = (allow l k.key k.time).1 := by
          rw [apart.decision k.key k.time is', apart.decision k.key k.time is, same]
        have tail := ih forward stays stays' (fun now _ => by rw [keeps, keeps', same]) thinned
        rw [decisions_cons_own, ← tail, ← agree]
        exact decisions_cons_own ..
      | drop _ denied thinned =>
        have refused : (rule.alone (kept l k.key) k.key k.time).1 = false :=
          (apart.decision k.key k.time is).symm.trans (denied rfl)
        refine ih forward stays is' (fun now later => ?_) thinned
        rw [keeps, forgiving refused (past now later)]
        exact alike now (List.mem_cons_of_mem _ later)
    · rw [readings, of_cons, if_neg own] at forward alike
      rw [if_neg (Ne.symm own)] at keeps keeps'
      cases thinned with
      | keep _ thinned =>
        rw [← keeps, ← keeps'] at alike
        rw [List.map_cons, decided, decisions_cons_ne own, decisions_cons_ne own,
          ih forward stays stays' alike thinned]
      | drop _ _ thinned =>
        rw [← keeps] at alike
        exact ih forward stays is' alike thinned

theorem Apart.denialsFree (apart : Apart allow kept rule Is) (forgiving : rule.Forgiving)
    {key : String} {calls : List Knock} (forward : (readings key calls).Pairwise (· ≤ ·)) {l : L}
    (is : Is l) : DenialsFree allow l key calls :=
  fun _ thinned => apart.decisions_thinned forgiving forward is is (fun _ _ => rfl) thinned

end

/-! ## The three algorithms -/

/-- A call that finds no room leaves its window as it was. -/
theorem Window.call_of_denied {maxRequests : UInt32} (some : 0 < maxRequests.toNat)
    {length now : Nat} {w : Window} (denied : (w.call maxRequests length now).1 = false) :
    (w.call maxRequests length now).2 = w := by
  by_cases past : length ≤ now - w.start
  · -- a window opened by the call would have room
    simp only [Window.call, if_pos past, if_pos some] at denied
    cases denied
  · simp only [Window.call, if_neg past] at denied ⊢
    split at denied
    · cases denied
    · next full => rw [if_neg full]

/-- A client without a window is never turned away. -/
theorem Window.call_new {maxRequests : UInt32} (some : 0 < maxRequests.toNat) (length now : Nat) :
    (Window.call maxRequests length now ⟨now, 0⟩).1 = true := by
  simp only [Window.call, ite_self, if_pos some]

theorem FixedWindow.forgiving {maxRequests : UInt32} (room : maxRequests ≠ 0) (length : Nat) :
    (FixedWindow.rule maxRequests length).Forgiving := by
  intro kept key now later denied _
  have some : 0 < maxRequests.toNat :=
    Nat.pos_of_ne_zero fun none => room (UInt32.toNat_inj.1 none)
  cases kept with
  | none => cases (Window.call_new some length now).symm.trans denied
  | some w =>
    have same : ((FixedWindow.rule maxRequests length).alone (.some w) key now).2 = .some w :=
      congrArg Option.some (Window.call_of_denied some denied)
    rw [same]

/-- What is over by now is over later. -/
theorem CallLog.dropWhile_dropWhile {length now later : Nat} (le : now ≤ later) (log : CallLog) :
    (log.dropWhile fun t => length ≤ now - t).dropWhile (fun t => length ≤ later - t) =
      log.dropWhile fun t => length ≤ later - t := by
  induction log with
  | nil => rfl
  | cons t log ih =>
    by_cases past : length ≤ now - t
    · have still : length ≤ later - t := by omega
      rw [List.dropWhile_cons_of_pos (by simpa using past), ih,
        List.dropWhile_cons_of_pos (by simpa using still)]
    · rw [List.dropWhile_cons_of_neg (by simpa using past)]

/-- A call that finds no room leaves nothing but the log without what is over. -/
theorem CallLog.call_of_denied {maxRequests : UInt32} {length now : Nat} {log : CallLog}
    (denied : (log.call maxRequests length now).1 = false) :
    (log.call maxRequests length now).2 = log.dropWhile fun t => length ≤ now - t := by
  simp only [CallLog.call] at denied ⊢
  split at denied
  · cases denied
  · next full => rw [if_neg full]

theorem SlidingLog.forgiving (maxRequests : UInt32) (length : Nat) :
    (SlidingLog.rule maxRequests length).Forgiving := by
  intro kept key now later denied le
  have cut : ((SlidingLog.rule maxRequests length).alone kept key now).2 =
      some ((kept.getD []).dropWhile fun t => length ≤ now - t) :=
    congrArg some (CallLog.call_of_denied denied)
  rw [cut]
  simp only [Rule.alone, SlidingLog.rule, CallLog.call, Option.getD_some,
    CallLog.dropWhile_dropWhile le]

namespace Bucket

variable {capacity : UInt32} {rate : ℚ} {now later : Nat}

theorem tokens_fill (capacity : UInt32) (rate : ℚ) (now : Nat) (b : Bucket ℚ) :
    (b.fill capacity rate now).tokens = refilled capacity rate b.tokens (now - b.filledAt) := by
  rw [refilled, mul_comm]
  rfl

/-- **Filling up on the way makes no difference** to a bucket. -/
theorem fill_fill (nonneg : 0 ≤ rate) (le : now ≤ later) (b : Bucket ℚ) :
    (b.fill capacity rate now).fill capacity rate later = b.fill capacity rate later := by
  have whole : now - b.filledAt + (later - max b.filledAt now) = later - b.filledAt := by omega
  have tokens : ((b.fill capacity rate now).fill capacity rate later).tokens =
      (b.fill capacity rate later).tokens := by
    rw [tokens_fill, tokens_fill, tokens_fill, fill, refilled_refilled nonneg, whole]
  have filledAt : max (max b.filledAt now) later = max b.filledAt later := by omega
  exact congrArg₂ Bucket.mk tokens filledAt

/-- A bucket that was full is full. -/
theorem fill_full (nonneg : 0 ≤ rate) (le : now ≤ later) :
    (full capacity now).fill capacity rate later = (full capacity later : Bucket ℚ) := by
  have more : (0 : ℚ) ≤ rate * Amount.seconds (later - now) :=
    mul_nonneg nonneg (seconds_nonneg _)
  have tokens : ((full capacity now).fill capacity rate later).tokens = (capacity.toNat : ℚ) := by
    rw [tokens_fill]
    exact min_eq_right (le_add_of_nonneg_right more)
  exact congrArg₂ Bucket.mk tokens (Nat.max_eq_right le)

/-- A call that finds no whole token leaves the bucket filled up. -/
theorem call_of_denied {b : Bucket ℚ} (denied : (b.call capacity rate now).1 = false) :
    (b.call capacity rate now).2 = b.fill capacity rate now := by
  simp only [call, take] at denied ⊢
  split at denied
  · cases denied
  · next short => rw [if_neg short]

end Bucket

theorem TokenBucket.forgiving (capacity : UInt32) {rate : ℚ} (nonneg : 0 ≤ rate) :
    (TokenBucket.rule capacity rate).Forgiving := by
  intro kept key now later denied le
  have filled : ((TokenBucket.rule capacity rate).alone kept key now).2 =
      some ((kept.getD (.full capacity now)).fill capacity rate now) :=
    congrArg some (Bucket.call_of_denied denied)
  -- a client that was not seen yet would have a full bucket either way
  have same : (((kept.getD (.full capacity now)).fill capacity rate now).fill capacity rate later) =
      (kept.getD (.full capacity later)).fill capacity rate later := by
    rw [Bucket.fill_fill nonneg le]
    cases kept with
    | none =>
      exact (Bucket.fill_full nonneg le).trans (Bucket.fill_full nonneg (Nat.le_refl _)).symm
    | some b => rfl
  rw [filled]
  simp only [Rule.alone, TokenBucket.rule, Bucket.call, Option.getD_some, same]

namespace Knock

/-- **Denied calls are free.** Whatever a limiter keeps of its clients, if a client's clock readings
do not go backwards, then any of its denied calls can be left out, and any call of others, and each
of the client's other calls is decided as before: so it is for fixed windows that have room and for
sliding logs, and counted exactly for token buckets whose rate is not negative, as sound
configurations have them. -/
theorem denials_free {key : String} {calls : List Knock}
    (forward : (readings key calls).Pairwise (· ≤ ·)) :
    (∀ l : FixedWindow, l.maxRequests ≠ 0 → DenialsFree FixedWindow.allow l key calls) ∧
    (∀ l : SlidingLog, DenialsFree SlidingLog.allow l key calls) ∧
    ∀ l : TokenBucket ℚ, 0 ≤ l.rate → DenialsFree TokenBucket.allow l key calls := by
  refine ⟨fun l room => ?_, fun l => ?_, fun l nonneg => ?_⟩
  · exact (FixedWindow.apart l.maxRequests l.length).denialsFree
      (FixedWindow.forgiving room l.length) forward ⟨rfl, rfl⟩
  · exact (SlidingLog.apart l.maxRequests l.length).denialsFree
      (SlidingLog.forgiving l.maxRequests l.length) forward ⟨rfl, rfl⟩
  · exact (TokenBucket.apart l.capacity l.rate).denialsFree
      (TokenBucket.forgiving l.capacity nonneg) forward ⟨rfl, rfl⟩

/-- Ann calls again and again, Bob once. -/
def annsHammering : List Knock :=
  [⟨"Ann", 0⟩, ⟨"Ann", 400000000⟩, ⟨"Bob", 400000000⟩, ⟨"Ann", 700000000⟩, ⟨"Ann", 1000000000⟩]

/-- Whether a call is any but Ann's second one. -/
def spared {L : Type u} (d : Decided L) : Bool := d.toKnock ≠ ⟨"Ann", 400000000⟩

/-- The calls without it. -/
def annsPatience : List Knock :=
  [⟨"Ann", 0⟩, ⟨"Bob", 400000000⟩, ⟨"Ann", 700000000⟩, ⟨"Ann", 1000000000⟩]

/-- What is decided of those of Ann. -/
def annsDecisions : List (Knock × Bool) :=
  [(⟨"Ann", 0⟩, true), (⟨"Ann", 700000000⟩, false), (⟨"Ann", 1000000000⟩, true)]

/-- One call per second is what Ann may make. She is denied after 0.4 and 0.7 seconds and admitted
after one. Without the first of those denied calls it is no different: not for a bucket, which that
call fills up with 0.4 of a token, nor for a window or a log. -/
theorem denials_free_for_ann :
    (readings "Ann" annsHammering).Pairwise (· ≤ ·) ∧
    (1 : UInt32) ≠ 0 ∧
    decisions "Ann" (decided FixedWindow.allow (.new 1 1000000000) annsPatience) = annsDecisions ∧
    decisions "Ann" (decided SlidingLog.allow (.new 1 1000000000) annsPatience) = annsDecisions ∧
    (0 : ℚ) ≤ 1 ∧
    decisions "Ann" (decided TokenBucket.allow (.new 1 1 : TokenBucket ℚ) annsPatience) =
      annsDecisions := by
  have forward : (readings "Ann" annsHammering).Pairwise (· ≤ ·) := by decide
  obtain ⟨windows, logs, buckets⟩ := denials_free forward
  have room : (1 : UInt32) ≠ 0 := by decide
  have nonneg : (0 : ℚ) ≤ 1 := by decide
  refine ⟨forward, room, ?_, ?_, nonneg, ?_⟩
  · exact (windows (.new 1 1000000000) room _ (.filter spared (by decide +kernel))).trans
      (by decide +kernel)
  · exact (logs (.new 1 1000000000) _ (.filter spared (by decide +kernel))).trans
      (by decide +kernel)
  · exact (buckets (.new 1 1) nonneg _ (.filter spared (by decide +kernel))).trans
      (by decide +kernel)

end Knock

end Tenure
