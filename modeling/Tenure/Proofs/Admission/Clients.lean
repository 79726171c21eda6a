import Mathlib.Data.List.Basic
import Mathlib.Data.List.Induction
import Tenure.Admission.Limiter

/-!
# Clients apart

A limiter is asked one call after the other, by many clients, and each caller brings
the reading of its own clock. Whatever the algorithm, a client gets the decisions it
would get if nobody else ever called (`Apart.decided_of`): each algorithm is a rule for
one client, with what is kept for the client from call to call.
-/

namespace Tenure

universe u v

/-- A call as a limiter gets it. -/
structure Knock where
  /-- who calls -/
  key : String
  /-- the caller's clock reading, in nanoseconds -/
  time : Nat
  deriving DecidableEq, Repr

/-- A call with its decision. -/
structure Decided (L : Type u) extends Knock where
  /-- whether it was admitted -/
  admitted : Bool
  /-- the limiter after it -/
  left : L

/-- The decided call with something read off the limiter. -/
def Decided.map {L : Type u} {M : Type v} (f : L → M) (d : Decided L) : Decided M :=
  ⟨d.toKnock, d.admitted, f d.left⟩

namespace Knock

variable {L : Type u} {M : Type v} (allow : L → String → Nat → Bool × L)

/-- The limiter after a row of calls. -/
def after (l : L) (calls : List Knock) : L := calls.foldl (fun l k => (allow l k.key k.time).2) l

/-- A row of calls with their decisions. -/
def decided (l : L) : List Knock → List (Decided L)
  | [] => []
  | k :: calls =>
    ⟨k, (allow l k.key k.time).1, (allow l k.key k.time).2⟩ ::
      decided (allow l k.key k.time).2 calls

/-- The calls of one client. -/
def of (key : String) (calls : List Knock) : List Knock := calls.filter (·.key = key)

/-- What the clock read at the calls of one client. -/
def readings (key : String) (calls : List Knock) : List Nat := (of key calls).map time

/-- The times of a client's calls that were admitted. -/
def admitted (l : L) (key : String) (calls : List Knock) : List Nat :=
  ((decided allow l calls).filter fun d => d.key = key ∧ d.admitted = true).map (·.time)

variable {allow} {l : L} {key : String} {k : Knock} {calls : List Knock}

@[simp] theorem after_nil : after allow l [] = l := rfl

@[simp] theorem after_cons :
    after allow l (k :: calls) = after allow (allow l k.key k.time).2 calls := rfl

theorem after_append (calls more : List Knock) :
    after allow l (calls ++ more) = after allow (after allow l calls) more :=
  List.foldl_append

theorem decided_append (calls more : List Knock) :
    decided allow l (calls ++ more) =
      decided allow l calls ++ decided allow (after allow l calls) more := by
  induction calls generalizing l with
  | nil => rfl
  | cons k calls ih => rw [List.cons_append, decided, decided, ih, after_cons, List.cons_append]

theorem of_cons : of key (k :: calls) = if k.key = key then k :: of key calls else of key calls := by
  simp only [of, List.filter_cons, decide_eq_true_eq]

theorem of_append (calls more : List Knock) : of key (calls ++ more) = of key calls ++ of key more :=
  List.filter_append ..

theorem readings_append (calls more : List Knock) :
    readings key (calls ++ more) = readings key calls ++ readings key more := by
  rw [readings, of_append, List.map_append, readings, readings]

/-- The next call joins the admitted ones if it is the client's and admitted. -/
theorem admitted_snoc (calls : List Knock) (k : Knock) :
    admitted allow l key (calls ++ [k]) = admitted allow l key calls ++
      if k.key = key ∧ (allow (after allow l calls) k.key k.time).1 = true then [k.time] else [] := by
  simp only [admitted, decided_append, decided, List.filter_append, List.map_append,
    List.filter_cons, List.filter_nil, decide_eq_true_eq]
  split <;> rfl

/-- Calls that are admitted are calls. -/
theorem admitted_sublist (calls : List Knock) :
    (admitted allow l key calls).Sublist (readings key calls) := by
  induction calls generalizing l with
  | nil => exact .slnil
  | cons k calls ih =>
    simp only [admitted, readings, decided, of_cons, List.filter_cons, decide_eq_true_eq]
    by_cases own : k.key = key
    · by_cases passed : (allow l k.key k.time).1 = true
      · rw [if_pos ⟨own, passed⟩, if_pos own]
        exact ih.cons_cons _
      · rw [if_neg fun h => passed h.2, if_pos own]
        exact ih.cons _
    · rw [if_neg fun h => own h.1, if_neg own]
      exact ih

/-- Decisions are about calls. -/
theorem toKnock_mem {d : Decided L} (h : d ∈ decided allow l calls) : d.toKnock ∈ calls := by
  induction calls generalizing l with
  | nil => cases h
  | cons k calls ih =>
    rcases List.mem_cons.1 h with rfl | h
    · exact List.mem_cons_self
    · exact List.mem_cons_of_mem _ (ih h)

/-- Part of a row with its decisions is what was decided of part of the calls. -/
theorem exists_of_decided_eq_append {row later : List (Decided L)}
    (h : decided allow l calls = row ++ later) : ∃ first rest, calls = first ++ rest ∧
      decided allow l first = row ∧ decided allow (after allow l first) rest = later := by
  induction row generalizing l calls with
  | nil => exact ⟨[], calls, rfl, rfl, h⟩
  | cons d row ih =>
    cases calls with
    | nil => cases h
    | cons k calls =>
      obtain ⟨rfl, tail⟩ := List.cons.inj h
      obtain ⟨first, rest, rfl, rfl, e⟩ := ih tail
      exact ⟨k :: first, rest, rfl, rfl, e⟩

/-- The limiter after a row of calls is what the last one left. -/
theorem getLast_left_eq_after (d : Decided L) (calls : List Knock) :
    ((d :: decided allow d.left calls).getLast (List.cons_ne_nil _ _)).left =
      after allow d.left calls := by
  induction calls generalizing d with
  | nil => rfl
  | cons k calls ih => exact ih ⟨k, (allow d.left k.key k.time).1, (allow d.left k.key k.time).2⟩

/-- What becomes of a limiter becomes of it inside anything it is faithfully built into. -/
theorem after_map {allow' : M → String → Nat → Bool × M} (f : L → M)
    (faithful : ∀ l key now, (allow' (f l) key now).2 = f (allow l key now).2)
    (l : L) (calls : List Knock) : after allow' (f l) calls = f (after allow l calls) := by
  induction calls generalizing l with
  | nil => rfl
  | cons k calls ih => rw [after_cons, faithful, ih, after_cons]

/-- What a limiter decides is decided by anything it is faithfully built into. -/
theorem decided_map {allow' : M → String → Nat → Bool × M} (f : L → M)
    (faithful : ∀ l key now, allow' (f l) key now = ((allow l key now).1, f (allow l key now).2))
    (l : L) (calls : List Knock) :
    decided allow' (f l) calls = (decided allow l calls).map (Decided.map f) := by
  induction calls generalizing l with
  | nil => rfl
  | cons k calls ih => simp only [decided, faithful, ih, List.map_cons, Decided.map]

end Knock

/-! ## The rule for one client -/

/-- What an algorithm does for one client. -/
structure Rule (S : Type) where
  /-- what is kept at the first call -/
  start : (now : Nat) → S
  /-- one call at `now`, from what is kept -/
  call : (now : Nat) → S → Bool × S

/-- The rule as a limiter that has one client only. -/
def Rule.alone {S : Type} (rule : Rule S) (kept : Option S) (_key : String) (now : Nat) :
    Bool × Option S :=
  let r := rule.call now (kept.getD (rule.start now))
  (r.1, some r.2)

/-- The limiters described by `Is` treat every client by `rule`, from what they keep for that
client. -/
structure Apart {L : Type} {S : Type} (allow : L → String → Nat → Bool × L)
    (kept : L → String → Option S) (rule : Rule S) (Is : L → Prop) : Prop where
  /-- they stay as described -/
  stays : ∀ {l} key now, Is l → Is (allow l key now).2
  /-- a decision is made by the rule -/
  decision : ∀ {l} key now, Is l → (allow l key now).1 = (rule.alone (kept l key) key now).1
  /-- what is kept for others stays -/
  keeps : ∀ {l} key key' now, Is l → kept (allow l key now).2 key' =
    if key' = key then (rule.alone (kept l key) key now).2 else kept l key'

namespace Apart

open Knock

variable {L : Type} {S : Type} {allow : L → String → Nat → Bool × L}
  {kept : L → String → Option S} {rule : Rule S} {Is : L → Prop}

theorem is_after (apart : Apart allow kept rule Is) {l : L} (is : Is l) (calls : List Knock) :
    Is (after allow l calls) := by
  induction calls generalizing l with
  | nil => exact is
  | cons k calls ih => exact ih (apart.stays k.key k.time is)

/-- **A client is treated as if nobody else called.** -/
theorem decided_of (apart : Apart allow kept rule Is) {l : L} (is : Is l) (key : String)
    (calls : List Knock) :
    ((decided allow l calls).filter (·.key = key)).map (Decided.map (kept · key)) =
      decided rule.alone (kept l key) (of key calls) := by
  induction calls generalizing l with
  | nil => rfl
  | cons k calls ih =>
    have rest := ih (apart.stays k.key k.time is)
    rw [apart.keeps k.key key k.time is] at rest
    rw [decided, of_cons]
    by_cases own : k.key = key
    · rw [if_pos own.symm] at rest
      subst own
      rw [List.filter_cons_of_pos (by simp), List.map_cons, rest, if_pos rfl, decided, Decided.map,
        apart.decision k.key k.time is, apart.keeps k.key k.key k.time is, if_pos rfl]
    · rw [if_neg (Ne.symm own)] at rest
      rw [List.filter_cons_of_neg (by simpa using own), rest, if_neg own]

/-- What is kept for a client depends on its own calls only. -/
theorem kept_after_of (apart : Apart allow kept rule Is) {l l' : L} (is : Is l) (is' : Is l')
    {key : String} (same : kept l key = kept l' key) (calls : List Knock) :
    kept (after allow l calls) key = kept (after allow l' (of key calls)) key := by
  induction calls generalizing l l' with
  | nil => exact same
  | cons k calls ih =>
    rw [after_cons, of_cons]
    by_cases own : k.key = key
    · rw [if_pos own, after_cons]
      refine ih (apart.stays _ _ is) (apart.stays _ _ is') ?_
      rw [apart.keeps _ _ _ is, apart.keeps _ _ _ is', own, same]
    · rw [if_neg own]
      refine ih (apart.stays _ _ is) is' ?_
      rw [apart.keeps _ _ _ is, if_neg (Ne.symm own), same]

/-- **A decision depends on the client's own earlier calls only.** -/
theorem allow_after_of (apart : Apart allow kept rule Is) {l : L} (is : Is l) (key : String)
    (calls : List Knock) (now : Nat) :
    (allow (after allow l calls) key now).1 = (allow (after allow l (of key calls)) key now).1 := by
  rw [apart.decision _ _ (apart.is_after is calls), apart.decision _ _ (apart.is_after is _),
    apart.kept_after_of is is rfl]

/-- **Invariants of one client.** What each of its calls keeps, of the clock readings so far, the
times of the admitted calls and what is kept for it, holds after every row of calls, as long as the
client's readings do not go backwards. -/
theorem invariant (apart : Apart allow kept rule Is) {l : L} (is : Is l) {key : String}
    {P : List Nat → List Nat → Option S → Prop} (start : P [] [] (kept l key))
    (step : ∀ {times admits : List Nat} {s : Option S} {now : Nat}, P times admits s →
      (∀ t ∈ times, t ≤ now) →
      P (times ++ [now]) (admits ++ if (rule.alone s key now).1 = true then [now] else [])
        (rule.alone s key now).2)
    {calls : List Knock} (forward : (readings key calls).Pairwise (· ≤ ·)) :
    P (readings key calls) (admitted allow l key calls) (kept (after allow l calls) key) := by
  induction calls using List.reverseRecOn with
  | nil => exact start
  | append_singleton calls k ih =>
    rw [readings_append] at forward ⊢
    obtain ⟨before, -, order⟩ := List.pairwise_append.1 forward
    have described := apart.is_after is calls
    rw [after_append, after_cons, after_nil, apart.keeps _ _ _ described, admitted_snoc]
    by_cases own : k.key = key
    · subst own
      have last : readings k.key [k] = [k.time] := by simp [readings, of]
      have next := step (ih before) fun t ht => order t ht _ (last ▸ List.mem_singleton_self _)
      rw [if_pos rfl, last]
      simpa only [true_and, apart.decision _ _ described] using next
    · have none : readings key [k] = [] := by simp [readings, of, own]
      rw [if_neg (Ne.symm own), if_neg fun h => own h.1, none, List.append_nil, List.append_nil]
      exact ih before

end Apart

/-! ## The three algorithms -/

/-- The rule of fixed windows. -/
def FixedWindow.rule (maxRequests : UInt32) (length : Nat) : Rule Window :=
  ⟨fun now => ⟨now, 0⟩, Window.call maxRequests length⟩

/-- The rule of sliding logs. -/
def SlidingLog.rule (maxRequests : UInt32) (length : Nat) : Rule CallLog :=
  ⟨fun _ => [], CallLog.call maxRequests length⟩

/-- The rule of token buckets. -/
def TokenBucket.rule {R : Type} [Amount R] (capacity : UInt32) (rate : R) : Rule (Bucket R) :=
  ⟨Bucket.full capacity, Bucket.call capacity rate⟩

theorem FixedWindow.apart (maxRequests : UInt32) (length : Nat) :
    Apart FixedWindow.allow (fun l => l.windows.get?) (FixedWindow.rule maxRequests length)
      fun l => l.maxRequests = maxRequests ∧ l.length = length where
  stays _ _ is := is
  decision key now := by rintro ⟨rfl, rfl⟩; rfl
  keeps key key' now := by rintro ⟨rfl, rfl⟩; exact get?_windows_allow _ key key' now

theorem SlidingLog.apart (maxRequests : UInt32) (length : Nat) :
    Apart SlidingLog.allow (fun l => l.logs.get?) (SlidingLog.rule maxRequests length)
      fun l => l.maxRequests = maxRequests ∧ l.length = length where
  stays _ _ is := is
  decision key now := by rintro ⟨rfl, rfl⟩; rfl
  keeps key key' now := by rintro ⟨rfl, rfl⟩; exact get?_logs_allow _ key key' now

theorem TokenBucket.apart {R : Type} [Amount R] (capacity : UInt32) (rate : R) :
    Apart TokenBucket.allow (fun l : TokenBucket R => l.buckets.get?)
      (TokenBucket.rule capacity rate) fun l => l.capacity = capacity ∧ l.rate = rate where
  stays _ _ is := is
  decision key now := by rintro ⟨rfl, rfl⟩; rfl
  keeps key key' now := by rintro ⟨rfl, rfl⟩; exact get?_buckets_allow _ key key' now

end Tenure
