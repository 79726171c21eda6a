import Mathlib.Data.List.Induction
import Tenure.Proofs.Admission.Clients

/-!
# Sliding logs are exact

A log forgets what has left the window by dropping from its front only. As long as
clock readings do not go backwards nothing is lost by that: within the window the log
holds just the admitted calls (`filter_log`), so a call is admitted if and only if there
is room in the window that ends with it.
-/

namespace Tenure

/-! ## One log -/

namespace CallLog

variable {length : Nat} {log : CallLog}

/-- In a sorted log, what has left the window stands in front. -/
theorem dropWhile_eq_filter (positive : 0 < length) (sorted : log.Pairwise (· ≤ ·)) (now : Nat) :
    (log.dropWhile fun t => length ≤ now - t) = log.filter fun t => now < t + length := by
  induction log with
  | nil => rfl
  | cons t log ih =>
    rw [List.pairwise_cons] at sorted
    by_cases left : length ≤ now - t
    · have out : ¬ now < t + length := by omega
      rw [List.dropWhile_cons_of_pos (by simpa using left), ih sorted.2,
        List.filter_cons_of_neg (by simpa using out)]
    · -- the log is sorted, so with the first call all of it is in the window
      rw [List.dropWhile_cons_of_neg (by simpa using left), eq_comm, List.filter_eq_self]
      intro s hs
      have : t ≤ s := by
        rcases List.mem_cons.1 hs with rfl | hs
        · exact Nat.le_refl _
        · exact sorted.1 s hs
      simp only [decide_eq_true_eq]
      omega

/-- A call no earlier than those in the log is entered with its own time. -/
theorem call_eq {maxRequests : UInt32} {now : Nat} (positive : 0 < length)
    (sorted : log.Pairwise (· ≤ ·)) (past : ∀ t ∈ log, t ≤ now) :
    call maxRequests length now log =
      if (log.filter fun t => now < t + length).length < maxRequests.toNat then
        (true, (log.filter fun t => now < t + length) ++ [now])
      else (false, log.filter fun t => now < t + length) := by
  have last : (((log.filter fun t => now < t + length).getLast?.map fun last =>
      max now last).getD now) = now := by
    cases h : (log.filter fun t => now < t + length).getLast? with
    | none => rfl
    | some t =>
      have := past t (List.mem_filter.1 (List.mem_of_getLast? h)).1
      rw [Option.map_some, Option.getD_some]
      omega
  rw [call, dropWhile_eq_filter positive sorted, last]

/-- The log holds admitted calls, and from `now` on all of those in the window. -/
structure Holds (length now : Nat) (admits log : List Nat) : Prop where
  /-- nothing is in it but admitted calls, in their order -/
  only : log.Sublist admits
  /-- whatever is in the window is in it -/
  all : ∀ later, now ≤ later →
    (log.filter fun t => later < t + length) = admits.filter fun t => later < t + length

theorem Holds.mono {now later : Nat} {admits : List Nat} (holds : Holds length now admits log)
    (le : now ≤ later) : Holds length later admits log :=
  ⟨holds.only, fun t h => holds.all t (Nat.le_trans le h)⟩

/-- The next call is admitted if there is room in the window, and the log goes on. -/
theorem Holds.call (maxRequests : UInt32) {now : Nat} {admits : List Nat}
    (holds : Holds length now admits log) (positive : 0 < length)
    (sorted : admits.Pairwise (· ≤ ·)) (past : ∀ t ∈ admits, t ≤ now) :
    (call maxRequests length now log).1 =
        decide ((admits.countP fun t => now < t + length) < maxRequests.toNat) ∧
      Holds length now
        (admits ++ if (call maxRequests length now log).1 = true then [now] else [])
        (call maxRequests length now log).2 := by
  have room : (log.filter fun t => now < t + length).length =
      admits.countP fun t => now < t + length := by
    rw [holds.all now (Nat.le_refl _), List.countP_eq_length_filter]
  have rest : Holds length now admits (log.filter fun t => now < t + length) := by
    refine ⟨List.filter_sublist.trans holds.only, fun later le => ?_⟩
    rw [List.filter_filter, ← holds.all later le]
    refine List.filter_congr fun t _ => ?_
    rw [← Bool.decide_and]
    exact decide_eq_decide.2 ⟨And.left, fun h => ⟨h, by omega⟩⟩
  rw [call_eq positive (sorted.sublist holds.only) fun t ht => past t (holds.only.subset ht), room]
  by_cases fits : (admits.countP fun t => now < t + length) < maxRequests.toNat
  · rw [if_pos fits, if_pos rfl]
    refine ⟨(decide_eq_true fits).symm, rest.only.append_right _, fun later le => ?_⟩
    rw [List.filter_append, List.filter_append, rest.all later le]
  · rw [if_neg fits, if_neg Bool.false_ne_true, List.append_nil]
    exact ⟨(decide_eq_false fits).symm, rest⟩

end CallLog

/-! ## Every row of calls -/

namespace SlidingLog

open Knock

variable {l : SlidingLog} {key : String}

/-- What is kept for a client. -/
def logOf (l : SlidingLog) (key : String) : CallLog := (l.logs.get? key).getD []

/-- The next call is decided from the client's log. -/
theorem allow_after (l : SlidingLog) (key : String) (calls : List Knock) (now : Nat) :
    ((after allow l calls).allow key now).1 =
      (CallLog.call l.maxRequests l.length now ((after allow l calls).logOf key)).1 := by
  obtain ⟨max, len⟩ := (apart l.maxRequests l.length).is_after (l := l) ⟨rfl, rfl⟩ calls
  rw [allow, max, len, logOf]

/-- The next call changes the log of its own client only. -/
theorem logOf_snoc (l : SlidingLog) (key : String) (calls : List Knock) (k : Knock) :
    (after allow l (calls ++ [k])).logOf key =
      if k.key = key then
        (CallLog.call l.maxRequests l.length k.time ((after allow l calls).logOf key)).2
      else (after allow l calls).logOf key := by
  obtain ⟨max, len⟩ := (apart l.maxRequests l.length).is_after (l := l) ⟨rfl, rfl⟩ calls
  rw [after_append, after_cons, after_nil, logOf, get?_logs_allow, max, len]
  by_cases own : k.key = key
  · rw [if_pos own.symm, if_pos own, Option.getD_some, own, logOf]
  · rw [if_neg (Ne.symm own), if_neg own, logOf]

/-- **The log of a client holds its admitted calls of the window.** -/
theorem holds_after (unseen : l.logs.get? key = none) (positive : 0 < l.length)
    {calls : List Knock} (forward : (readings key calls).Pairwise (· ≤ ·)) {now : Nat}
    (past : ∀ t ∈ readings key calls, t ≤ now) :
    CallLog.Holds l.length now (admitted allow l key calls) ((after allow l calls).logOf key) := by
  induction calls using List.reverseRecOn generalizing now with
  | nil =>
    rw [after_nil, logOf, unseen]
    exact ⟨.slnil, fun _ _ => rfl⟩
  | append_singleton calls k ih =>
    rw [readings_append] at forward past
    obtain ⟨before, -, order⟩ := List.pairwise_append.1 forward
    rw [admitted_snoc, logOf_snoc]
    by_cases own : k.key = key
    · subst own
      have last : k.time ∈ readings k.key [k] := by simp [readings, of]
      have earlier : ∀ t ∈ readings k.key calls, t ≤ k.time := fun t ht => order t ht _ last
      have sub : (admitted allow l k.key calls).Sublist (readings k.key calls) :=
        admitted_sublist calls
      have next := ((ih before earlier).call l.maxRequests positive (before.sublist sub)
        fun t ht => earlier t (sub.subset ht)).2.mono (past _ (List.mem_append_right _ last))
      simpa only [if_true, true_and, allow_after] using next
    · rw [if_neg own, if_neg fun h => own h.1, List.append_nil]
      exact ih before fun t ht => past t (List.mem_append_left _ ht)

/-- **A call is admitted if and only if there is room in the window that ends with it.** -/
theorem allow_iff (unseen : l.logs.get? key = none) (positive : 0 < l.length)
    {calls : List Knock} {now : Nat} (forward : (readings key calls).Pairwise (· ≤ ·))
    (past : ∀ t ∈ readings key calls, t ≤ now) :
    ((after allow l calls).allow key now).1 = true ↔
      ((admitted allow l key calls).countP fun t => now < t + l.length) < l.maxRequests.toNat := by
  have sub : (admitted allow l key calls).Sublist (readings key calls) := admitted_sublist calls
  rw [allow_after, ((holds_after unseen positive forward past).call l.maxRequests positive
    (forward.sublist sub) fun t ht => past t (sub.subset ht)).1, decide_eq_true_iff]

/-- **A stretch of time no longer than the window has no more admitted calls than are permitted.** -/
theorem countP_le (unseen : l.logs.get? key = none) (positive : 0 < l.length)
    {calls : List Knock} (forward : (readings key calls).Pairwise (· ≤ ·)) {inside : Nat → Bool}
    (short : ∀ s t, inside s = true → inside t = true → t < s + l.length) :
    (admitted allow l key calls).countP inside ≤ l.maxRequests.toNat := by
  induction calls using List.reverseRecOn with
  | nil => exact Nat.zero_le _
  | append_singleton calls k ih =>
    rw [readings_append] at forward
    obtain ⟨before, -, order⟩ := List.pairwise_append.1 forward
    rw [admitted_snoc]
    split
    case isFalse => simpa using ih before
    case isTrue passed =>
      obtain ⟨rfl, passed⟩ := passed
      by_cases here : inside k.time = true
      · -- every call of the stretch is in the window that ends with the last one
        have earlier : ∀ t ∈ readings k.key calls, t ≤ k.time := fun t ht =>
          order t ht _ (by simp [readings, of])
        have room := (allow_iff unseen positive before earlier).1 passed
        have fewer : (admitted allow l k.key calls).countP inside ≤
            (admitted allow l k.key calls).countP fun t => k.time < t + l.length :=
          List.countP_mono_left fun t _ ht => decide_eq_true (short t k.time ht here)
        rw [List.countP_append, List.countP_cons_of_pos here, List.countP_nil]
        omega
      · rw [List.countP_append, List.countP_cons_of_neg here, List.countP_nil]
        exact ih before

/-- **A sliding log is exact.** If a client's clock readings do not go backwards, whoever else
calls: a call is admitted if and only if fewer than are permitted were admitted less than a window's
length before it; so many at most are ever admitted within an interval of that length, whichever end
of it is left out; and whoever is turned away has had so many admitted in the window that ends with
the call. -/
theorem log_exact {l : SlidingLog} {key : String} {calls : List Knock}
    (unseen : l.logs.get? key = none) (positive : 0 < l.length)
    (forward : (readings key calls).Pairwise (· ≤ ·)) :
    (∀ before now later, calls = before ++ ⟨key, now⟩ :: later →
      (((after allow l before).allow key now).1 = true ↔
        ((admitted allow l key before).countP fun t => now < t + l.length) < l.maxRequests.toNat) ∧
      (((after allow l before).allow key now).1 = false → l.maxRequests.toNat ≤
        (admitted allow l key before).countP fun t => t ≤ now ∧ now < t + l.length)) ∧
    ∀ start : Int,
      ((admitted allow l key calls).countP fun t : Nat => start ≤ t ∧ t < start + l.length) ≤
        l.maxRequests.toNat ∧
      ((admitted allow l key calls).countP fun t : Nat => start < t ∧ t ≤ start + l.length) ≤
        l.maxRequests.toNat := by
  refine ⟨fun before now later row => ?_, fun start => ⟨?_, ?_⟩⟩
  · rw [row, readings_append] at forward
    obtain ⟨sorted, -, order⟩ := List.pairwise_append.1 forward
    have past : ∀ t ∈ readings key before, t ≤ now := fun t ht =>
      order t ht now (by simp [readings, of])
    have exact := allow_iff unseen positive sorted past
    refine ⟨exact, fun denied => ?_⟩
    have full := mt exact.2 (by rw [denied]; exact Bool.false_ne_true)
    refine Nat.le_trans (Nat.le_of_not_lt full) (List.countP_mono_left fun t ht inWindow => ?_)
    have : t ≤ now := past t ((admitted_sublist _).subset ht)
    simpa using ⟨this, of_decide_eq_true inWindow⟩
  · refine countP_le unseen positive forward fun s t hs ht => ?_
    simp only [decide_eq_true_eq] at hs ht
    omega
  · refine countP_le unseen positive forward fun s t hs ht => ?_
    simp only [decide_eq_true_eq] at hs ht
    omega

/-- Ann calls four times while Bob calls once. -/
def annsCalls : List Knock := [⟨"Ann", 0⟩, ⟨"Bob", 3⟩, ⟨"Ann", 4⟩, ⟨"Ann", 9⟩, ⟨"Ann", 10⟩]

/-- Of two calls in ten nanoseconds Ann makes the most: turned away at 9, she is admitted at 10, when
her first call has just left the window. -/
theorem log_exact_for_ann :
    (readings "Ann" annsCalls).Pairwise (· ≤ ·) ∧
    admitted allow (new 2 10) "Ann" annsCalls = [0, 4, 10] ∧
    2 ≤ ((admitted allow (new 2 10) "Ann" (annsCalls.take 3)).countP fun t => t ≤ 9 ∧ 9 < t + 10) ∧
    ∀ start : Int, ((admitted allow (new 2 10) "Ann" annsCalls).countP fun t : Nat =>
      start ≤ t ∧ t < start + 10) ≤ 2 := by
  have forward : (readings "Ann" annsCalls).Pairwise (· ≤ ·) := by decide
  obtain ⟨each, everywhere⟩ :=
    log_exact (l := new 2 10) rfl (by decide) forward
  exact ⟨forward, rfl, (each (annsCalls.take 3) 9 _ rfl).2 rfl, fun start => (everywhere start).1⟩

end SlidingLog

end Tenure
