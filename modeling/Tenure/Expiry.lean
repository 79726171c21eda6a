import Tenure.Id
import Tenure.Sorted

/-!
# Pending expiries

The deadlines of holds, kept until they fall due. Confirming or cancelling a hold
leaves its entry in the queue; an entry whose generation no longer names a live
hold does nothing when its time comes.

Entries are ordered by fire time, then by resource, then by generation, and the
queue holds them in that order. Whoever waits for the earliest deadline is woken
only by an entry that is strictly earlier than all others: `wake` stays set from
such an entry until the waiting party has taken notice.
-/

namespace Tenure

/-- A deadline to be looked at when it comes. -/
structure Expiry where
  /-- the wall time at which to look -/
  fireAt : Int
  /-- the resource held -/
  id : Id
  /-- the generation of the hold -/
  generation : UInt64
  deriving DecidableEq, Repr

namespace Expiry

/-- By fire time, then by resource, then by generation. -/
def le (a b : Expiry) : Bool :=
  a.fireAt < b.fireAt || (a.fireAt == b.fireAt &&
    (decide (a.id ≤ b.id) && a.id ≠ b.id || (a.id == b.id && a.generation ≤ b.generation)))

/-- The order, spelt out. -/
theorem le_iff {a b : Expiry} :
    a.le b = true ↔ a.fireAt < b.fireAt ∨ a.fireAt = b.fireAt ∧
      ((a.id ≤ b.id ∧ a.id ≠ b.id) ∨ (a.id = b.id ∧ a.generation ≤ b.generation)) := by
  simp [le]

/-- Any two entries are in order one way or the other. -/
theorem le_total (a b : Expiry) : a.le b = true ∨ b.le a = true := by
  rw [le_iff, le_iff]
  by_cases h : a.id = b.id
  · rcases UInt64.le_total a.generation b.generation with hg | hg <;> simp [h, hg] <;> omega
  · have h' : ¬ b.id = a.id := fun e => h e.symm
    rcases Id.le_total a.id b.id with hi | hi <;> simp [h, h', hi] <;> omega

/-- The order is transitive. -/
theorem le_trans (a b c : Expiry) (h₁ : a.le b = true) (h₂ : b.le c = true) : a.le c = true := by
  rw [le_iff] at *
  rcases h₁ with h₁ | ⟨h₁, h₁'⟩ <;> rcases h₂ with h₂ | ⟨h₂, h₂'⟩
  · left; omega
  · left; omega
  · left; omega
  · right
    refine ⟨by omega, ?_⟩
    rcases h₁' with ⟨hi, hn⟩ | ⟨hi, hg⟩ <;> rcases h₂' with ⟨hi', hn'⟩ | ⟨hi', hg'⟩
    · left
      refine ⟨Id.le_trans hi hi', fun e => hn (Id.le_antisymm hi ?_)⟩
      rw [e]; exact hi'
    · left; rw [← hi']; exact ⟨hi, hn⟩
    · left; rw [hi]; exact ⟨hi', hn'⟩
    · right; exact ⟨hi.trans hi', UInt64.le_trans hg hg'⟩

/-- The three-way comparison that goes with the order. -/
def compare (a b : Expiry) : Ordering :=
  if a = b then .eq else if a.le b then .lt else .gt

end Expiry

/-- The pending expiries in order. -/
structure ExpiryQueue where
  /-- the entries, the earliest first -/
  entries : List Expiry
  /-- an entry came in ahead of all others and nobody has taken notice yet -/
  wake : Bool
  /-- the entries are in order -/
  sorted : entries.Pairwise fun a b => a.le b = true

namespace ExpiryQueue

/-- The queue without entries. -/
protected def empty : ExpiryQueue := ⟨[], false, List.Pairwise.nil⟩

instance : Inhabited ExpiryQueue := ⟨ExpiryQueue.empty⟩

/-- How many entries are pending, stale ones included. -/
def size (q : ExpiryQueue) : Nat := q.entries.length

/-- The earliest fire time. -/
def nextDeadline (q : ExpiryQueue) : Option Int := q.entries.head?.map Expiry.fireAt

/-- Adds an entry; one that fires before all others sets `wake`. -/
def schedule (q : ExpiryQueue) (e : Expiry) : ExpiryQueue where
  entries := insertBy Expiry.le e q.entries
  wake := q.wake || q.nextDeadline.all fun t => e.fireAt < t
  sorted := pairwise_insertBy Expiry.le_total Expiry.le_trans e q.sorted

/-- The entries due at `now`, in order. -/
def due (q : ExpiryQueue) (now : Int) : List Expiry := q.entries.takeWhile fun e => e.fireAt ≤ now

/-- The queue without the entries due at `now`. -/
def afterDue (q : ExpiryQueue) (now : Int) : ExpiryQueue where
  entries := q.entries.dropWhile fun e => e.fireAt ≤ now
  wake := q.wake
  sorted := q.sorted.sublist (List.dropWhile_sublist _)

/-- The queue after notice was taken of an early entry. -/
def noticed (q : ExpiryQueue) : ExpiryQueue := { q with wake := false }

/-- **Nothing is lost** when the due entries are taken out. -/
theorem due_append_afterDue (q : ExpiryQueue) (now : Int) :
    q.due now ++ (q.afterDue now).entries = q.entries := List.takeWhile_append_dropWhile

/-- What is due is exactly what fires at or before `now`. -/
theorem mem_due_iff {q : ExpiryQueue} {now : Int} {e : Expiry} :
    e ∈ q.due now ↔ e ∈ q.entries ∧ e.fireAt ≤ now := by
  obtain ⟨l, w, hs⟩ := q
  simp only [due]
  induction l with
  | nil => simp
  | cons x xs ih =>
    rw [List.pairwise_cons] at hs
    rw [List.takeWhile_cons]
    split
    · next hx =>
      simp only [decide_eq_true_eq] at hx
      rw [List.mem_cons, List.mem_cons, ih hs.2]
      constructor
      · rintro (rfl | h)
        · exact ⟨Or.inl rfl, hx⟩
        · exact ⟨Or.inr h.1, h.2⟩
      · rintro ⟨rfl | h, ht⟩
        · exact Or.inl rfl
        · exact Or.inr ⟨h, ht⟩
    · next hx =>
      simp only [decide_eq_true_eq] at hx
      constructor
      · intro h; simp at h
      · rintro ⟨h, ht⟩
        exfalso
        rcases List.mem_cons.1 h with rfl | h
        · exact hx ht
        · have := hs.1 e h
          rw [Expiry.le_iff] at this
          omega

/-- Once what is due was taken out the rest is still to come. -/
theorem lt_of_mem_afterDue {q : ExpiryQueue} {now : Int} {e : Expiry}
    (he : e ∈ (q.afterDue now).entries) : now < e.fireAt := by
  obtain ⟨entries, wake, sorted⟩ := q
  simp only [afterDue] at he
  induction entries with
  | nil => cases he
  | cons x xs ih =>
    obtain ⟨first, sorted⟩ := List.pairwise_cons.1 sorted
    rw [List.dropWhile_cons] at he
    split at he
    · exact ih sorted he
    · next late =>
      rw [decide_eq_true_eq] at late
      rcases List.mem_cons.1 he with rfl | he
      · omega
      · have := first e he
        rw [Expiry.le_iff] at this
        omega

/-- The earliest deadline is no later than any of them. -/
theorem nextDeadline_le {q : ExpiryQueue} {e : Expiry} (he : e ∈ q.entries) :
    ∃ t, q.nextDeadline = some t ∧ t ≤ e.fireAt := by
  obtain ⟨entries, wake, sorted⟩ := q
  cases entries with
  | nil => cases he
  | cons x xs =>
    refine ⟨x.fireAt, rfl, ?_⟩
    rcases List.mem_cons.1 he with rfl | he
    · exact Int.le_refl _
    · have first := (List.pairwise_cons.1 sorted).1 e he
      rw [Expiry.le_iff] at first
      omega

end ExpiryQueue

end Tenure
