import Mathlib.Data.Multiset.Sort
import Mathlib.Data.Prod.Lex
import Tenure.Expiry

/-!
# The queue is a sorted multiset

A queue is asked to take entries in and to hand out what is due, in any order and with clock
readings that may go back. Its answers are those of a bag of entries that is searched anew each time
(`Bag.respond`): whoever asks gets exactly what is due, by fire time, then by resource, then by
generation, and everything else stays (`ExpiryQueue.sorted_multiset`).

Entries that are the same in every part are still several entries, so bags are multisets.
-/

namespace Tenure

namespace Expiry

/-! ## The order of entries -/

/-- Fire time, resource and generation, compared from left to right. -/
def key (e : Expiry) : ℤ ×ₗ (ℕ ×ₗ ℕ) ×ₗ ℕ :=
  toLex (e.fireAt, toLex (toLex (e.id.stamp, e.id.serial), e.generation.toNat))

/-- An entry is told by its three parts. -/
theorem key_injective : Function.Injective key := by
  rintro ⟨t, ⟨stamp, serial⟩, generation⟩ ⟨t', ⟨stamp', serial'⟩, generation'⟩ same
  simp only [key, EmbeddingLike.apply_eq_iff_eq, Prod.mk.injEq, UInt64.toNat_inj] at same
  obtain ⟨rfl, ⟨rfl, rfl⟩, rfl⟩ := same
  rfl

/-- Whether `a` may come before `b`. -/
def Upto (a b : Expiry) : Prop := a.key ≤ b.key

instance : DecidableRel Upto := fun a b => inferInstanceAs (Decidable (a.key ≤ b.key))

instance : IsTrans Expiry Upto := ⟨fun _ _ _ h h' => h.trans h'⟩

instance : Std.Antisymm Upto := ⟨fun _ _ h h' => key_injective (h.antisymm h')⟩

instance : Std.Total Upto := ⟨fun a b => LinearOrder.le_total a.key b.key⟩

/-- **The queue's order** goes by the three parts. -/
theorem le_iff_upto {a b : Expiry} : a.le b = true ↔ a.Upto b := by
  obtain ⟨t, ⟨stamp, serial⟩, generation⟩ := a
  obtain ⟨t', ⟨stamp', serial'⟩, generation'⟩ := b
  simp only [Upto, key, Prod.Lex.toLex_le_toLex, Prod.Lex.toLex_lt_toLex, le_iff, Id.le_iff,
    UInt64.le_iff_toNat_le, EmbeddingLike.apply_eq_iff_eq, Prod.mk.injEq, Id.mk.injEq, ne_eq]
  omega

end Expiry

/-! ## What is asked of a queue -/

/-- What a queue may be asked for. -/
inductive Ask where
  /-- one more entry is to be kept -/
  | schedule (e : Expiry)
  /-- whatever is due at `now` is to be handed out -/
  | takeDue (now : Int)

namespace Ask

variable {σ : Type}

/-- What is handed out, ask by ask. -/
def answers (respond : σ → Ask → List Expiry × σ) : σ → List Ask → List (List Expiry)
  | _, [] => []
  | s, a :: row => (respond s a).1 :: answers respond (respond s a).2 row

/-- What there is after a row of asks. -/
def after (respond : σ → Ask → List Expiry × σ) : σ → List Ask → σ
  | s, [] => s
  | s, a :: row => after respond (respond s a).2 row

/-- What answers alike and goes on alike answers a whole row alike. -/
theorem answers_after_map {τ : Type} {respond : σ → Ask → List Expiry × σ}
    {respond' : τ → Ask → List Expiry × τ} (f : σ → τ)
    (alike : ∀ s a, respond' (f s) a = ((respond s a).1, f (respond s a).2)) (s : σ)
    (row : List Ask) :
    answers respond' (f s) row = answers respond s row ∧
      after respond' (f s) row = f (after respond s row) := by
  induction row generalizing s with
  | nil => exact ⟨rfl, rfl⟩
  | cons a row ih =>
    rw [answers, after, alike, answers, after]
    exact ⟨congrArg _ (ih _).1, (ih _).2⟩

/-- The entry that comes in. -/
def incoming : Ask → Multiset Expiry
  | schedule e => {e}
  | takeDue _ => 0

/-- The entries that come in during a row of asks. -/
def scheduled (row : List Ask) : Multiset Expiry := (row.map incoming).sum

end Ask

/-- A bag of entries: what is due is searched for and put in order when somebody asks. -/
def Bag.respond (bag : Multiset Expiry) : Ask → List Expiry × Multiset Expiry
  | .schedule e => ([], e ::ₘ bag)
  | .takeDue now =>
    ((bag.filter fun e => e.fireAt ≤ now).sort Expiry.Upto, bag.filter fun e => ¬ e.fireAt ≤ now)

namespace Bag

open Ask

/-- What is handed out and what stays are what was there and what came in. -/
theorem respond_balances (bag : Multiset Expiry) (a : Ask) :
    (respond bag a).2 + ((respond bag a).1 : Multiset Expiry) = bag + a.incoming := by
  cases a with
  | schedule e =>
    rw [respond, incoming, Multiset.coe_nil, Multiset.add_zero, Multiset.add_comm,
      Multiset.singleton_add]
  | takeDue now =>
    rw [respond, incoming, Multiset.sort_eq, Multiset.add_zero, Multiset.add_comm,
      Multiset.filter_add_not]

/-- **So it is over a row**: nothing is lost, and nothing is handed out twice. -/
theorem row_balances (bag : Multiset Expiry) (row : List Ask) :
    after respond bag row + ((answers respond bag row).flatten : Multiset Expiry) =
      bag + scheduled row := by
  induction row generalizing bag with
  | nil => rfl
  | cons a row ih =>
    calc after respond bag (a :: row) + ((answers respond bag (a :: row)).flatten : Multiset Expiry)
        = after respond (respond bag a).2 row +
            ((answers respond (respond bag a).2 row).flatten : Multiset Expiry) +
            ((respond bag a).1 : Multiset Expiry) := by
          rw [after, answers, List.flatten_cons, ← Multiset.coe_add, Multiset.add_assoc,
            Multiset.add_comm ((respond bag a).1 : Multiset Expiry)]
      _ = (respond bag a).2 + ((respond bag a).1 : Multiset Expiry) + scheduled row := by
          rw [ih, Multiset.add_assoc, Multiset.add_comm (scheduled row), Multiset.add_assoc]
      _ = bag + scheduled (a :: row) := by
          rw [respond_balances, scheduled, scheduled, List.map_cons, List.sum_cons,
            Multiset.add_assoc]

end Bag

namespace ExpiryQueue

open Ask

/-- The queue's own way. -/
def respond (q : ExpiryQueue) : Ask → List Expiry × ExpiryQueue
  | .schedule e => ([], q.schedule e)
  | .takeDue now => (q.due now, q.afterDue now)

/-- The entries regardless of their order. -/
def bag (q : ExpiryQueue) : Multiset Expiry := q.entries

variable {q : ExpiryQueue}

theorem bag_schedule (q : ExpiryQueue) (e : Expiry) : (q.schedule e).bag = e ::ₘ q.bag :=
  Multiset.coe_eq_coe.2 (insertBy_perm e q.entries)

/-- What is due and the rest make up the queue. -/
theorem bag_eq (q : ExpiryQueue) (now : Int) :
    q.bag = (q.due now : Multiset Expiry) + (q.afterDue now).bag := by
  rw [bag, bag, Multiset.coe_add, due_append_afterDue]

/-- What is handed out is all that is due. -/
theorem coe_due (q : ExpiryQueue) (now : Int) :
    (q.due now : Multiset Expiry) = q.bag.filter fun e => e.fireAt ≤ now := by
  have all : ∀ e ∈ (q.due now : Multiset Expiry), e.fireAt ≤ now := fun e he =>
    (mem_due_iff.1 he).2
  have none : ∀ e ∈ (q.afterDue now).bag, ¬ e.fireAt ≤ now := fun e he =>
    Int.not_le.2 (lt_of_mem_afterDue he)
  rw [bag_eq q now, Multiset.filter_add, Multiset.filter_eq_self.2 all,
    Multiset.filter_eq_nil.2 none, Multiset.add_zero]

/-- What stays is all that is not. -/
theorem bag_afterDue (q : ExpiryQueue) (now : Int) :
    (q.afterDue now).bag = q.bag.filter fun e => ¬ e.fireAt ≤ now := by
  have parts := bag_eq q now
  rw [coe_due] at parts
  exact Multiset.add_right_inj.1 (parts.symm.trans (Multiset.filter_add_not _ q.bag).symm)

/-- It is handed out in order. -/
theorem due_eq_sort (q : ExpiryQueue) (now : Int) :
    q.due now = (q.bag.filter fun e => e.fireAt ≤ now).sort Expiry.Upto := by
  have sorted : (q.due now).Pairwise Expiry.Upto :=
    (q.sorted.sublist (List.takeWhile_sublist _)).imp Expiry.le_iff_upto.1
  rw [← coe_due, Multiset.coe_sort, List.mergeSort_eq_self _ sorted]

/-- **A queue answers as its bag does**, and goes on as the bag goes on. -/
theorem respond_bag (q : ExpiryQueue) (a : Ask) :
    Bag.respond q.bag a = ((q.respond a).1, (q.respond a).2.bag) := by
  cases a with
  | schedule e => exact Prod.ext rfl (bag_schedule q e).symm
  | takeDue now => exact Prod.ext (due_eq_sort q now).symm (bag_afterDue q now).symm

/-- The earliest deadline is the least fire time. -/
theorem nextDeadline_eq_some_iff {t : Int} : q.nextDeadline = some t ↔
    (∃ e ∈ q.bag, e.fireAt = t) ∧ ∀ e ∈ q.bag, t ≤ e.fireAt := by
  constructor
  · intro next
    refine ⟨?_, fun e he => ?_⟩
    · obtain ⟨e, first, fires⟩ := Option.map_eq_some_iff.1 next
      exact ⟨e, List.mem_of_head? first, fires⟩
    · obtain ⟨t', next', le⟩ := nextDeadline_le he
      rw [next] at next'
      cases next'
      exact le
  · rintro ⟨⟨e, there, rfl⟩, least⟩
    obtain ⟨t, next, le⟩ := nextDeadline_le there
    obtain ⟨e', first, rfl⟩ := Option.map_eq_some_iff.1 next
    rw [next, Int.le_antisymm le (least e' (List.mem_of_head? first))]

/-- **The queue is a sorted multiset.** Whatever a new queue is asked for, and whatever clock
readings it is asked with, it answers like a bag of entries that is searched anew each time: it
hands out exactly what was taken in, not handed out before and due, in ascending order, and keeps
exactly the rest. What it has kept and what it has handed out are at every moment, entry for entry,
what was taken in. Its size is the number of entries kept, and the next deadline is the least of
their fire times. -/
theorem sorted_multiset (row : List Ask) :
    let q := after respond .empty row
    let handedOut := answers respond .empty row
    let kept := after Bag.respond 0 row
    handedOut = answers Bag.respond 0 row ∧
      q.bag = kept ∧ kept + (handedOut.flatten : Multiset Expiry) = scheduled row ∧
      q.size = kept.card ∧
      ∀ t, q.nextDeadline = some t ↔ (∃ e ∈ kept, e.fireAt = t) ∧ ∀ e ∈ kept, t ≤ e.fireAt := by
  intro q handedOut kept
  obtain ⟨same, goesOn⟩ : answers Bag.respond 0 row = handedOut ∧ kept = q.bag :=
    answers_after_map bag respond_bag .empty row
  refine ⟨same.symm, goesOn.symm, ?_, ?_, fun t => ?_⟩
  · rw [← same, Bag.row_balances, Multiset.zero_add]
  · rw [goesOn]
    rfl
  · rw [goesOn]
    exact nextDeadline_eq_some_iff

/-- Of entries that fire together the one with the smaller resource comes first, and of those of one
resource the one of the earlier generation; an entry that came in twice is handed out twice, and a
clock that goes back finds nothing. -/
example :
    answers respond .empty
      [.schedule ⟨5, ⟨0, 2⟩, 1⟩, .schedule ⟨5, ⟨0, 1⟩, 7⟩, .schedule ⟨5, ⟨0, 1⟩, 3⟩,
        .schedule ⟨5, ⟨0, 1⟩, 3⟩, .schedule ⟨9, ⟨0, 0⟩, 0⟩, .takeDue 5, .takeDue (-1)] =
      [[], [], [], [], [], [⟨5, ⟨0, 1⟩, 3⟩, ⟨5, ⟨0, 1⟩, 3⟩, ⟨5, ⟨0, 1⟩, 7⟩, ⟨5, ⟨0, 2⟩, 1⟩], []] := by
  decide

end ExpiryQueue

end Tenure
