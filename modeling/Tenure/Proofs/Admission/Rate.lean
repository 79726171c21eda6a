import Mathlib.Algebra.Order.Field.Rat
import Mathlib.Tactic.Linarith
import Tenure.Proofs.Admission.Late

/-!
# Token buckets keep to their rate

Counted exactly, over the rationals, a bucket never holds less than nothing or more than it can, and
whatever is refused is refused for want of a whole token. What comes in between two calls comes in
for good: calls that were turned away on the way make no difference (`refilled_refilled`).

The rate bound is a matter of credit, the balance less all that the rate has brought since the clock
began. Filling never raises the credit and a token taken lowers it by one (`credit_call`), so between
any two calls no more are admitted than a full bucket holds and the rate brings in (`rate_kept`).
-/

namespace Tenure

/-- Exact numbers. -/
instance : Amount ℚ where
  ofNat n := n
  seconds ns := ns / 1000000000
  least := min
  atMost a b := decide (a ≤ b)

namespace Bucket

variable {capacity : UInt32} {rate : ℚ} {now : Nat} {b : Bucket ℚ}

/-! ## One bucket -/

theorem seconds_add (m n : Nat) :
    (Amount.seconds (m + n) : ℚ) = Amount.seconds m + Amount.seconds n := by
  change ((m + n : ℕ) : ℚ) / 1000000000 = m / 1000000000 + n / 1000000000
  rw [Nat.cast_add, add_div]

theorem seconds_nonneg (n : Nat) : (0 : ℚ) ≤ Amount.seconds n :=
  div_nonneg (Nat.cast_nonneg n) (by norm_num)

theorem seconds_zero : (Amount.seconds 0 : ℚ) = 0 := zero_div _

/-- What has become of a balance after some time, if nothing was taken. -/
def refilled (capacity : UInt32) (rate balance : ℚ) (nanos : Nat) : ℚ :=
  min (balance + rate * Amount.seconds nanos) capacity.toNat

/-- **What comes in is not lost**: filling up on the way makes no difference. -/
theorem refilled_refilled (nonneg : 0 ≤ rate) (balance : ℚ) (m n : Nat) :
    refilled capacity rate (refilled capacity rate balance m) n =
      refilled capacity rate balance (m + n) := by
  have more : (capacity.toNat : ℚ) ≤ capacity.toNat + rate * Amount.seconds n :=
    le_add_of_nonneg_right (mul_nonneg nonneg (seconds_nonneg n))
  rw [refilled, refilled, refilled, seconds_add, mul_add, ← add_assoc, ← min_add_add_right, min_assoc,
    min_eq_right more]

theorem refilled_le (capacity : UInt32) (rate balance : ℚ) (nanos : Nat) :
    refilled capacity rate balance nanos ≤ capacity.toNat := min_le_right ..

theorem refilled_nonneg (capacity : UInt32) (nonneg : 0 ≤ rate) {balance : ℚ} (some : 0 ≤ balance)
    (nanos : Nat) : 0 ≤ refilled capacity rate balance nanos :=
  le_min (add_nonneg some (mul_nonneg nonneg (seconds_nonneg nanos))) (Nat.cast_nonneg _)

/-- A call takes a token off what it finds, if there is a whole one. -/
theorem call_eq (capacity : UInt32) (rate : ℚ) (now : Nat) (b : Bucket ℚ) :
    b.call capacity rate now =
      if 1 ≤ refilled capacity rate b.tokens (now - b.filledAt) then
        (true, ⟨refilled capacity rate b.tokens (now - b.filledAt) - 1, max b.filledAt now⟩)
      else (false, ⟨refilled capacity rate b.tokens (now - b.filledAt), max b.filledAt now⟩) := by
  have found : (b.fill capacity rate now).tokens =
      refilled capacity rate b.tokens (now - b.filledAt) := by
    rw [refilled, mul_comm]
    rfl
  have whole : Amount.atMost (Amount.ofNat 1) (b.fill capacity rate now).tokens = true ↔
      1 ≤ (b.fill capacity rate now).tokens := by
    rw [← Nat.cast_one (R := ℚ)]
    exact decide_eq_true_iff
  rw [← found, call, take]
  split
  · next enough => exact (if_pos (whole.1 enough)).symm
  · next short => exact (if_neg (mt whole.2 short)).symm

/-- A call no earlier than the last one fills the bucket up to its time. -/
theorem filledAt_call_of_le (capacity : UInt32) (rate : ℚ) (le : b.filledAt ≤ now) :
    (b.call capacity rate now).2.filledAt = now :=
  (filledAt_call ..).trans (Nat.max_eq_right le)

/-- What is in a bucket beyond what the rate has brought. -/
def credit (rate : ℚ) (b : Bucket ℚ) : ℚ := b.tokens - rate * Amount.seconds b.filledAt

/-- **Credit** is used up by calls that are admitted, and nothing adds to it. -/
theorem credit_call (capacity : UInt32) (rate : ℚ) (le : b.filledAt ≤ now) :
    (b.call capacity rate now).2.credit rate + (if (b.call capacity rate now).1 then 1 else 0) ≤
      b.credit rate := by
  have gain : refilled capacity rate b.tokens (now - b.filledAt) ≤
      b.tokens + rate * Amount.seconds (now - b.filledAt) := min_le_left ..
  have since : (Amount.seconds now : ℚ) =
      Amount.seconds b.filledAt + Amount.seconds (now - b.filledAt) := by
    rw [← seconds_add, Nat.add_sub_cancel' le]
  rw [call_eq]
  split <;> simp only [credit, Nat.max_eq_right le, since, mul_add, if_true, Bool.false_eq_true,
    if_false] <;> linarith

end Bucket

/-! ## The account of one client -/

namespace TokenBucket

open Knock

variable {capacity : UInt32} {rate : ℚ} {calls : List Knock}

/-- The calls of a client, each with its decision and the bucket it left. -/
def account (l : TokenBucket ℚ) (key : String) (calls : List Knock) :
    List (Decided (Option (Bucket ℚ))) :=
  ((decided allow l calls).filter (·.key = key)).map (Decided.map (·.buckets.get? key))

/-- A call found a balance: it was admitted if there was a whole token, and took it. -/
structure Finds (d : Decided (Option (Bucket ℚ))) (balance : ℚ) : Prop where
  /-- only without a whole token a call is turned away -/
  decision : d.admitted = true ↔ 1 ≤ balance
  /-- all else is left -/
  left : d.left.map Bucket.tokens = some (balance - if d.admitted then 1 else 0)

/-- A call has left a bucket in order. -/
structure Leaves (capacity : UInt32) (d : Decided (Option (Bucket ℚ))) (b : Bucket ℚ) : Prop where
  /-- that is the bucket -/
  left : d.left = some b
  /-- it was filled just now -/
  filledAt : b.filledAt = d.time
  /-- it owes nothing -/
  nonneg : 0 ≤ b.tokens
  /-- before the call it held no more than it can -/
  room : b.tokens + (if d.admitted then 1 else 0) ≤ capacity.toNat

theorem Leaves.le {d : Decided (Option (Bucket ℚ))} {b : Bucket ℚ} (leaves : Leaves capacity d b) :
    b.tokens ≤ capacity.toNat := by
  refine le_trans (le_add_of_nonneg_right ?_) leaves.room
  split <;> norm_num

/-- A client's next call, with its decision. -/
abbrev next (capacity : UInt32) (rate : ℚ) (kept : Option (Bucket ℚ)) (k : Knock) :
    Decided (Option (Bucket ℚ)) :=
  ⟨k, ((rule capacity rate).alone kept k.key k.time).1,
    ((rule capacity rate).alone kept k.key k.time).2⟩

/-- What a call finds: what was left and what came in since, or else a full bucket. -/
def found (capacity : UInt32) (rate : ℚ) (kept : Option (Bucket ℚ)) (now : Nat) : ℚ :=
  Bucket.refilled capacity rate (kept.getD (.full capacity now)).tokens
    (now - (kept.getD (.full capacity now)).filledAt)

theorem found_none (capacity : UInt32) (rate : ℚ) (now : Nat) :
    found capacity rate none now = capacity.toNat := by
  change Bucket.refilled capacity rate (capacity.toNat : ℚ) (now - now) = _
  rw [Nat.sub_self, Bucket.refilled, Bucket.seconds_zero, mul_zero, add_zero, min_self]

/-- What a call finds, it takes from. -/
theorem finds_next (capacity : UInt32) (rate : ℚ) (kept : Option (Bucket ℚ)) (k : Knock) :
    Finds (next capacity rate kept k) (found capacity rate kept k.time) := by
  simp only [next, Rule.alone, rule, Bucket.call_eq, found]
  split
  · next whole => exact ⟨iff_of_true rfl whole, rfl⟩
  · next short => exact ⟨iff_of_false Bool.false_ne_true short, by simp⟩

/-- A call on a bucket in order leaves one. -/
theorem leaves_next (capacity : UInt32) (nonneg : 0 ≤ rate) {kept : Option (Bucket ℚ)} {k : Knock}
    (sound : ∀ b, kept = some b → 0 ≤ b.tokens ∧ b.filledAt ≤ k.time) :
    ∃ b, Leaves capacity (next capacity rate kept k) b := by
  obtain ⟨some, le⟩ : 0 ≤ (kept.getD (.full capacity k.time)).tokens ∧
      (kept.getD (.full capacity k.time)).filledAt ≤ k.time := by
    cases kept with
    | none => exact ⟨Nat.cast_nonneg _, Nat.le_refl _⟩
    | some b => exact sound b rfl
  have most := Bucket.refilled_le capacity rate (kept.getD (.full capacity k.time)).tokens
    (k.time - (kept.getD (.full capacity k.time)).filledAt)
  have least := Bucket.refilled_nonneg capacity nonneg some
    (k.time - (kept.getD (.full capacity k.time)).filledAt)
  refine ⟨_, rfl, Bucket.filledAt_call_of_le capacity rate le, ?_, ?_⟩ <;>
    simp only [Rule.alone, rule, Bucket.call_eq] <;> split
  · next whole => exact sub_nonneg.2 whole
  · exact least
  · simpa using most
  · simpa using most

/-- **Every call leaves a bucket in order**, if the client's readings do not go backwards. -/
theorem exists_leaves (nonneg : 0 ≤ rate) {kept : Option (Bucket ℚ)}
    (sound : ∀ b, kept = some b → 0 ≤ b.tokens ∧ ∀ k ∈ calls, b.filledAt ≤ k.time)
    (forward : calls.Pairwise (·.time ≤ ·.time)) :
    ∀ d ∈ decided (rule capacity rate).alone kept calls, ∃ b, Leaves capacity d b := by
  induction calls generalizing kept with
  | nil => intro d hd; cases hd
  | cons k calls ih =>
    obtain ⟨first, rest⟩ := List.pairwise_cons.1 forward
    obtain ⟨b, leaves⟩ := leaves_next capacity nonneg fun b e =>
      ⟨(sound b e).1, (sound b e).2 k List.mem_cons_self⟩
    intro d hd
    rcases List.mem_cons.1 hd with rfl | hd
    · exact ⟨b, leaves⟩
    · refine ih (fun b' e => ?_) rest d hd
      obtain rfl := Option.some.inj (leaves.left.symm.trans e)
      exact ⟨leaves.nonneg, fun k' hk' => leaves.filledAt ▸ first k' hk'⟩

theorem exists_leaves_of_new (nonneg : 0 ≤ rate) (forward : calls.Pairwise (·.time ≤ ·.time)) :
    ∀ d ∈ decided (rule capacity rate).alone none calls, ∃ b, Leaves capacity d b :=
  exists_leaves nonneg (by intro b e; cases e) forward

/-- **A row of calls uses up credit.** -/
theorem countP_add_credit_le (capacity : UInt32) (rate : ℚ) {b : Bucket ℚ}
    (past : ∀ k ∈ calls, b.filledAt ≤ k.time)
    (forward : calls.Pairwise (·.time ≤ ·.time)) :
    ∃ b', after (rule capacity rate).alone (some b) calls = some b' ∧
      ((decided (rule capacity rate).alone (some b) calls).countP (·.admitted) : ℚ) +
        b'.credit rate ≤ b.credit rate := by
  induction calls generalizing b with
  | nil => exact ⟨b, rfl, by simp [decided]⟩
  | cons k calls ih =>
    obtain ⟨first, rest⟩ := List.pairwise_cons.1 forward
    have le := past k List.mem_cons_self
    rw [← Bucket.filledAt_call_of_le capacity rate le] at first
    obtain ⟨b', last, more⟩ := ih first rest
    have one := Bucket.credit_call capacity rate le
    have count : (decided (rule capacity rate).alone (some b) (k :: calls)).countP (·.admitted) =
        (decided (rule capacity rate).alone (some (b.call capacity rate k.time).2) calls).countP
          (·.admitted) + if (b.call capacity rate k.time).1 = true then 1 else 0 :=
      List.countP_cons
    refine ⟨b', last, ?_⟩
    rw [count, Nat.cast_add, Nat.cast_ite, Nat.cast_one, Nat.cast_zero]
    linarith

/-- **Calls that are turned away make no difference** to what the next one finds. -/
theorem finds_after_refusals (nonneg : 0 ≤ rate) {b : Bucket ℚ}
    (past : ∀ k ∈ calls, b.filledAt ≤ k.time) (forward : calls.Pairwise (·.time ≤ ·.time))
    {refused later : List (Decided (Option (Bucket ℚ)))} {d : Decided (Option (Bucket ℚ))}
    (row : decided (rule capacity rate).alone (some b) calls = refused ++ d :: later)
    (denied : ∀ r ∈ refused, r.admitted = false) :
    Finds d (Bucket.refilled capacity rate b.tokens (d.time - b.filledAt)) := by
  induction refused generalizing b calls with
  | nil =>
    cases calls with
    | nil => cases row
    | cons k calls =>
      obtain ⟨rfl, -⟩ := List.cons.inj row
      exact finds_next capacity rate (some b) k
  | cons r refused ih =>
    cases calls with
    | nil => cases row
    | cons k calls =>
      obtain ⟨rfl, rest⟩ := List.cons.inj row
      obtain ⟨first, forward⟩ := List.pairwise_cons.1 forward
      have le := past k List.mem_cons_self
      have now := Bucket.filledAt_call_of_le capacity rate le
      have kept : (b.call capacity rate k.time).2.tokens =
          Bucket.refilled capacity rate b.tokens (k.time - b.filledAt) := by
        have turnedAway : (b.call capacity rate k.time).1 = false := denied _ List.mem_cons_self
        rw [Bucket.call_eq] at turnedAway ⊢
        split at turnedAway
        · cases turnedAway
        · next short => rw [if_neg short]
      have reached : k.time ≤ d.time := by
        have among : d ∈ refused ++ d :: later := List.mem_append_right _ List.mem_cons_self
        exact first d.toKnock (toKnock_mem (Eq.mpr (congrArg (d ∈ ·) rest) among))
      rw [← now] at first
      have later := ih first forward rest fun r hr => denied r (List.mem_cons_of_mem _ hr)
      have whole : k.time - b.filledAt + (d.time - k.time) = d.time - b.filledAt := by omega
      rwa [kept, now, Bucket.refilled_refilled nonneg, whole] at later

/-- What comes after a call of a row is decided from the bucket that it left. -/
theorem exists_rest (nonneg : 0 ≤ rate) (forward : calls.Pairwise (·.time ≤ ·.time))
    {before rest : List (Decided (Option (Bucket ℚ)))} {d : Decided (Option (Bucket ℚ))}
    (row : decided (rule capacity rate).alone none calls = before ++ d :: rest) :
    ∃ b more, Leaves capacity d b ∧ decided (rule capacity rate).alone (some b) more = rest ∧
      more.Pairwise (·.time ≤ ·.time) ∧ ∀ k ∈ more, b.filledAt ≤ k.time := by
  have among : d ∈ before ++ d :: rest := List.mem_append_right _ List.mem_cons_self
  obtain ⟨b, leaves⟩ := exists_leaves_of_new nonneg forward d (row ▸ among)
  obtain ⟨earlier, later, rfl, -, rest⟩ := exists_of_decided_eq_append row
  cases later with
  | nil => cases rest
  | cons k more =>
    obtain ⟨rfl, tail⟩ := List.cons.inj rest
    obtain ⟨first, forward⟩ := List.pairwise_cons.1 (List.pairwise_append.1 forward).2.1
    refine ⟨b, more, leaves, ?_, forward, fun k' hk' => leaves.filledAt ▸ first k' hk'⟩
    rw [← leaves.left]
    exact tail

/-- **Between two calls**, both included, no more are admitted than a full bucket holds and the rate
brings in. -/
theorem countP_le (nonneg : 0 ≤ rate) (forward : calls.Pairwise (·.time ≤ ·.time))
    {before more later : List (Decided (Option (Bucket ℚ)))} {first : Decided (Option (Bucket ℚ))}
    (row : decided (rule capacity rate).alone none calls = before ++ first :: (more ++ later)) :
    ((first :: more).countP (·.admitted) : ℚ) ≤ capacity.toNat + rate *
      Amount.seconds (((first :: more).getLast (List.cons_ne_nil _ _)).time - first.time) := by
  obtain ⟨b, rest, leaves, tail, sorted, past⟩ := exists_rest nonneg forward row
  obtain ⟨between, others, rfl, decisions, -⟩ := exists_of_decided_eq_append tail
  obtain ⟨b', after, spent⟩ := countP_add_credit_le capacity rate
    (fun k hk => past k (List.mem_append_left _ hk)) (List.pairwise_append.1 sorted).1
  -- the last of them has left what is there after all of them
  have isLast : ((first :: more).getLast (List.cons_ne_nil _ _)).left = some b' := by
    rw [← after, ← leaves.left]
    subst decisions
    rw [← leaves.left]
    exact getLast_left_eq_after first between
  have among : (first :: more).getLast (List.cons_ne_nil _ _) ∈
      decided (rule capacity rate).alone none calls := by
    rw [row, ← List.cons_append]
    exact List.mem_append_right _ (List.mem_append_left _ (List.getLast_mem _))
  obtain ⟨b'', last⟩ := exists_leaves_of_new nonneg forward _ among
  obtain rfl := Option.some.inj (isLast.symm.trans last.left)
  have later : ∀ d ∈ more, first.time ≤ d.time := by
    intro d hd
    rw [← decisions] at hd
    exact leaves.filledAt ▸ past _ (List.mem_append_left _ (toKnock_mem hd))
  have onTime : first.time ≤ ((first :: more).getLast (List.cons_ne_nil _ _)).time := by
    rcases List.mem_cons.1 (List.getLast_mem (List.cons_ne_nil first more)) with same | hd
    · rw [same]
    · exact later _ hd
  have since : (Amount.seconds ((first :: more).getLast (List.cons_ne_nil _ _)).time : ℚ) =
      Amount.seconds first.time +
        Amount.seconds (((first :: more).getLast (List.cons_ne_nil _ _)).time - first.time) := by
    rw [← Bucket.seconds_add, Nat.add_sub_cancel' onTime]
  have room := leaves.room
  have nonneg := last.nonneg
  rw [Bucket.credit, Bucket.credit, last.filledAt, leaves.filledAt, since, decisions] at spent
  rw [List.countP_cons, Nat.cast_add, Nat.cast_ite, Nat.cast_one, Nat.cast_zero]
  linarith

/-! ## Every row of calls -/

variable {l : TokenBucket ℚ} {key : String}

/-- A client's account is as if nobody else called. -/
theorem account_eq (unseen : l.buckets.get? key = none) (calls : List Knock) :
    account l key calls = decided (rule l.capacity l.rate).alone none (of key calls) :=
  unseen ▸ (apart l.capacity l.rate).decided_of ⟨rfl, rfl⟩ key calls

/-- **A token bucket keeps to its rate.** Counted exactly, with a rate that is not negative, if a
client's clock readings do not go backwards, whoever else calls:

* after every call the balance lies between zero and the capacity;
* from any call to any later one, both included, no more are admitted than the capacity and what the
  rate brings in between the two;
* the first call finds a full bucket, and every later one what an earlier call left and all that the
  rate has brought since, up to the capacity, however many calls were turned away between the two; a
  call is turned away only if it finds less than one token. -/
theorem rate_kept (unseen : l.buckets.get? key = none) (nonneg : 0 ≤ l.rate)
    (forward : (readings key calls).Pairwise (· ≤ ·)) :
    (∀ d ∈ account l key calls,
      ∃ b, d.left = some b ∧ 0 ≤ b.tokens ∧ b.tokens ≤ l.capacity.toNat) ∧
    (∀ before first more later, account l key calls = before ++ first :: (more ++ later) →
      ((first :: more).countP (·.admitted) : ℚ) ≤ l.capacity.toNat + l.rate *
        Amount.seconds (((first :: more).getLast (List.cons_ne_nil _ _)).time - first.time)) ∧
    (∀ first later, account l key calls = first :: later → Finds first l.capacity.toNat) ∧
    ∀ before d b refused d' later, account l key calls = before ++ d :: (refused ++ d' :: later) →
      d.left = some b → (∀ r ∈ refused, r.admitted = false) →
        Finds d' (Bucket.refilled l.capacity l.rate b.tokens (d'.time - d.time)) := by
  have sorted : (of key calls).Pairwise (·.time ≤ ·.time) := List.pairwise_map.1 forward
  rw [account_eq unseen]
  refine ⟨fun d hd => ?_, fun before first more later row => countP_le nonneg sorted row,
    fun first later row => ?_, fun before d b refused d' later row left denied => ?_⟩
  · obtain ⟨b, leaves⟩ := exists_leaves_of_new nonneg sorted d hd
    exact ⟨b, leaves.left, leaves.nonneg, leaves.le⟩
  · cases h : of key calls with
    | nil =>
      rw [h] at row
      cases row
    | cons k calls =>
      rw [h] at row
      obtain ⟨rfl, -⟩ := List.cons.inj row
      exact found_none l.capacity l.rate k.time ▸ finds_next ..
  · obtain ⟨b', rest, leaves, tail, forward, past⟩ := exists_rest nonneg sorted row
    obtain rfl := Option.some.inj (left.symm.trans leaves.left)
    exact leaves.filledAt ▸ finds_after_refusals nonneg past forward tail denied

/-- Ann calls three times at once, and then after 0.6 and after 1.2 seconds; Bob calls once. -/
def annsRush : List Knock :=
  [⟨"Ann", 0⟩, ⟨"Ann", 0⟩, ⟨"Bob", 0⟩, ⟨"Ann", 0⟩, ⟨"Ann", 600000000⟩, ⟨"Ann", 1200000000⟩]

/-- From a bucket of two tokens that gets one per second Ann takes both, and is denied a third one and
another after 0.6 seconds. The 0.6 tokens that came in by then are not lost: after 1.2 seconds she
finds 1.2. -/
theorem rate_kept_for_ann :
    0 ≤ (new 2 1 : TokenBucket ℚ).rate ∧
    (readings "Ann" annsRush).Pairwise (· ≤ ·) ∧
    (account (new 2 1) "Ann" annsRush).map (fun d => (d.admitted, d.left.map Bucket.tokens)) =
      [(true, some 1), (true, some 0), (false, some 0), (false, some (3 / 5)), (true, some (1 / 5))] ∧
    ∀ d ∈ account (new 2 1) "Ann" annsRush, ∃ b, d.left = some b ∧ 0 ≤ b.tokens ∧ b.tokens ≤ 2 := by
  have forward : (readings "Ann" annsRush).Pairwise (· ≤ ·) := by decide
  have nonneg : 0 ≤ (new 2 1 : TokenBucket ℚ).rate := by decide
  exact ⟨nonneg, forward, by decide +kernel, (rate_kept rfl nonneg forward).1⟩

end TokenBucket

end Tenure
