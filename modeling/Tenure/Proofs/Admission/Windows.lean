import Tenure.Proofs.Admission.Clients

/-!
# Fixed windows admit the first calls of each

The first call of a client opens a window, and so does every call that comes a window's length or
more after the last one was opened; a window is told by its start (`Window.starts`). As long as clock
readings do not go backwards, just the first calls of each window are admitted, as many as are
permitted (`allow_iff`). Windows do not overlap, so an interval as long as a window meets two of them
at most, and never has more than twice as many admitted calls (`countP_le_twice`).
-/

namespace Tenure

/-! ## The windows of a row of calls -/

namespace Window

/-- The start of the window in which a call at `now` falls, when the last window was opened at `last`,
if there was one. -/
def startOf (length now : Nat) (last : Option Nat) : Nat :=
  match last with
  | none => now
  | some start => if start + length ≤ now then now else start

/-- The windows in which calls at these times fall, one after the other, each told by its start. -/
def starts (length : Nat) (times : List Nat) : List Nat :=
  times.foldl (fun starts now => starts ++ [startOf length now starts.getLast?]) []

/-- How many of the calls at `times` fall in the same window as the next one, at `now`. -/
def ahead (length : Nat) (times : List Nat) (now : Nat) : Nat :=
  (starts length times).count (startOf length now (starts length times).getLast?)

theorem starts_snoc (length : Nat) (times : List Nat) (now : Nat) :
    starts length (times ++ [now]) =
      starts length times ++ [startOf length now (starts length times).getLast?] := by
  rw [starts, List.foldl_append, ← starts, List.foldl_cons, List.foldl_nil]

/-! ## One window -/

/-- A call in the window that it falls in. -/
def joined (maxRequests : UInt32) (w : Window) : Bool × Window :=
  if w.count < maxRequests.toNat then (true, { w with count := w.count + 1 }) else (false, w)

/-- First the window is found, then the call joins it. -/
theorem call_eq_joined (maxRequests : UInt32) (length now : Nat) (w : Window) :
    w.call maxRequests length now =
      (if length ≤ now - w.start then ⟨now, 0⟩ else w).joined maxRequests := rfl

/-- The window is the latest one, and its count is what it should be, given the windows of the calls
so far and the times of the admitted ones. -/
structure Covers (maxRequests length : Nat) (starts admits : List Nat) (w : Window) : Prop where
  /-- no later window was opened -/
  latest : ∀ s ∈ starts, s ≤ w.start
  /-- of the calls in it the first are admitted -/
  count : w.count = min maxRequests (starts.count w.start)
  /-- the calls admitted since its start are those -/
  since : admits.countP (w.start ≤ ·) = w.count
  /-- all admitted calls came before its end -/
  within : ∀ t ∈ admits, t < w.start + length
  /-- within a window's length before it no more calls were admitted than are permitted -/
  before : ∀ x : Int, w.start < x + length →
    (admits.countP fun t : Nat => x ≤ t ∧ t < w.start) ≤ maxRequests

variable {maxRequests : UInt32} {length now : Nat} {times all admits : List Nat} {w : Window}

/-- The first window. -/
theorem covers_first (maxRequests length now : Nat) : Covers maxRequests length [] [] ⟨now, 0⟩ where
  latest _ hs := nomatch hs
  count := (Nat.min_zero _).symm
  since := rfl
  within _ ht := nomatch ht
  before _ _ := Nat.zero_le _

/-- **The next window** is opened a window's length after the last one, or later. -/
theorem Covers.next {maxRequests : Nat} (covers : w.Covers maxRequests length all admits)
    (ended : w.start + length ≤ now) (positive : 0 < length) :
    Covers maxRequests length all admits ⟨now, 0⟩ where
  latest s hs := Nat.le_trans (covers.latest s hs) (Nat.le_trans (Nat.le_add_right ..) ended)
  count := by
    have unopened : all.count now = 0 :=
      List.count_eq_zero.2 fun opened => by have := covers.latest now opened; omega
    rw [unopened, Nat.min_zero]
  since := List.countP_eq_zero.2 fun t ht => by
    have := covers.within t ht
    simp only [decide_eq_true_eq]
    omega
  within t ht := by
    have := covers.within t ht
    change t < now + length
    omega
  before x near := by
    -- what was admitted that shortly before is of the last window
    calc (admits.countP fun t : Nat => x ≤ t ∧ t < now)
        ≤ admits.countP (w.start ≤ ·) := List.countP_mono_left fun t _ ht => by
          simp only [decide_eq_true_eq] at ht near ⊢
          omega
      _ = w.count := covers.since
      _ ≤ maxRequests := covers.count ▸ Nat.min_le_left ..

/-- **A call in the window** takes its turn among those of the window. -/
theorem Covers.joined (covers : w.Covers maxRequests.toNat length all admits)
    (began : w.start ≤ now) (lasts : now < w.start + length) :
    Covers maxRequests.toNat length (all ++ [w.start])
      (admits ++ if (w.joined maxRequests).1 = true then [now] else []) (w.joined maxRequests).2 := by
  have count := covers.count
  have latest : ∀ s ∈ all ++ [w.start], s ≤ w.start := fun s hs =>
    (List.mem_append.1 hs).elim (covers.latest s) fun last =>
      Nat.le_of_eq (List.mem_singleton.1 last)
  have more : (all ++ [w.start]).count w.start = all.count w.start + 1 := by
    rw [List.count_append, List.count_singleton_self]
  by_cases room : w.count < maxRequests.toNat
  · rw [Window.joined, if_pos room, if_pos rfl]
    refine ⟨latest, ?_, ?_, fun t ht => ?_, fun x near => ?_⟩
    · rw [more]
      change w.count + 1 = _
      omega
    · rw [List.countP_append, covers.since, List.countP_cons_of_pos (by simpa using began),
        List.countP_nil]
    · rcases List.mem_append.1 ht with ht | ht
      · exact covers.within t ht
      · exact List.mem_singleton.1 ht ▸ lasts
    · rw [List.countP_append, List.countP_cons_of_neg (by simpa using fun _ => began),
        List.countP_nil]
      exact covers.before x near
  · rw [Window.joined, if_neg room, if_neg Bool.false_ne_true, List.append_nil]
    refine ⟨latest, ?_, covers.since, covers.within, covers.before⟩
    rw [more]
    change w.count = _
    omega

/-- An interval as long as a window which the window reaches into has at most twice as many admitted
calls as are permitted. -/
theorem Covers.countP_le {maxRequests : Nat} (covers : w.Covers maxRequests length all admits)
    {x : Int} (near : w.start < x + length) :
    (admits.countP fun t : Nat => x ≤ t ∧ t < x + length) ≤ 2 * maxRequests := by
  have earlier := covers.before x near
  have count := covers.count
  calc (admits.countP fun t : Nat => x ≤ t ∧ t < x + length)
      ≤ (admits.countP fun t : Nat => x ≤ t ∧ t < w.start) + admits.countP (w.start ≤ ·) := by
        rw [List.countP_eq_countP_filter_add admits _ (· < w.start), List.countP_filter,
          List.countP_filter]
        refine Nat.add_le_add (List.countP_mono_left fun t _ ht => ?_)
          (List.countP_mono_left fun t _ ht => ?_) <;>
          simp only [Bool.and_eq_true, Bool.not_eq_true', decide_eq_true_eq,
            decide_eq_false_iff_not] at ht ⊢ <;> omega
    _ ≤ 2 * maxRequests := by rw [covers.since]; omega

/-! ## The windows of one client -/

/-- What is kept for a client is the window of its latest call. -/
def Tracks (maxRequests length : Nat) (times admits : List Nat) : Option Window → Prop
  | none => times = [] ∧ admits = []
  | some w => (starts length times).getLast? = some w.start ∧ w.start ∈ times ∧
    w.Covers maxRequests length (starts length times) admits

/-- The next call falls in a window that has counted well so far. -/
theorem Tracks.window {kept : Option Window}
    (tracks : Tracks maxRequests.toNat length times admits kept) (positive : 0 < length)
    (past : ∀ t ∈ times, t ≤ now) :
    ∃ w : Window, w.start = startOf length now (starts length times).getLast? ∧
      w.start ∈ times ++ [now] ∧ w.start ≤ now ∧ now < w.start + length ∧
      w.Covers maxRequests.toNat length (starts length times) admits ∧
      (kept.getD ⟨now, 0⟩).call maxRequests length now = w.joined maxRequests := by
  have new : now ∈ times ++ [now] := List.mem_append_right _ (List.mem_singleton_self now)
  have lasts : now < now + length := Nat.lt_add_of_pos_right positive
  cases kept with
  | none =>
    obtain ⟨rfl, rfl⟩ := tracks
    refine ⟨⟨now, 0⟩, rfl, new, Nat.le_refl _, lasts, covers_first .., ?_⟩
    rw [Option.getD_none, call_eq_joined, ite_self]
  | some w =>
    obtain ⟨last, opened, covers⟩ := tracks
    have began : w.start ≤ now := past _ opened
    rw [last, Option.getD_some, startOf, call_eq_joined]
    by_cases ended : w.start + length ≤ now
    · refine ⟨⟨now, 0⟩, (if_pos ended).symm, new, Nat.le_refl _, lasts, covers.next ended positive, ?_⟩
      rw [if_pos (by omega)]
    · refine ⟨w, (if_neg ended).symm, List.mem_append_left _ opened, began, Nat.lt_of_not_le ended,
        covers, ?_⟩
      rw [if_neg (by omega)]

/-- **The next call** is admitted if it is among the first of its window. -/
theorem Tracks.call {kept : Option Window}
    (tracks : Tracks maxRequests.toNat length times admits kept) (positive : 0 < length)
    (past : ∀ t ∈ times, t ≤ now) :
    ((kept.getD ⟨now, 0⟩).call maxRequests length now).1 =
        decide (ahead length times now < maxRequests.toNat) ∧
      Tracks maxRequests.toNat length (times ++ [now])
        (admits ++
          if ((kept.getD ⟨now, 0⟩).call maxRequests length now).1 = true then [now] else [])
        (some ((kept.getD ⟨now, 0⟩).call maxRequests length now).2) := by
  obtain ⟨w, start, opened, began, lasts, covers, e⟩ := tracks.window positive past
  have same : (w.joined maxRequests).2.start = w.start := by
    rw [Window.joined]
    split <;> rfl
  have turn : (w.joined maxRequests).1 = decide (w.count < maxRequests.toNat) := by
    rw [Window.joined]
    split
    · next room => exact (decide_eq_true room).symm
    · next full => exact (decide_eq_false full).symm
  have count := covers.count
  rw [e]
  refine ⟨?_, ?_, ?_, ?_⟩
  · rw [turn, ahead, ← start]
    exact decide_eq_decide.2 (by omega)
  · rw [starts_snoc, ← start, same, List.getLast?_concat]
  · rwa [same]
  · rw [starts_snoc, ← start]
    exact covers.joined began lasts

/-- An interval that ends after the latest call has at most twice as many admitted calls as are
permitted. -/
theorem Tracks.countP_le {maxRequests : Nat} {kept : Option Window}
    (tracks : Tracks maxRequests length times admits kept) {x : Int}
    (past : ∀ t ∈ times, t < x + length) :
    (admits.countP fun t : Nat => x ≤ t ∧ t < x + length) ≤ 2 * maxRequests := by
  cases kept with
  | none =>
    obtain ⟨-, rfl⟩ := tracks
    exact Nat.zero_le _
  | some w =>
    obtain ⟨-, opened, covers⟩ := tracks
    exact covers.countP_le (past _ opened)

end Window

/-! ## Every row of calls -/

namespace FixedWindow

open Knock

variable {l : FixedWindow} {key : String}

/-- The next call is decided from the client's window. -/
theorem allow_after (l : FixedWindow) (key : String) (calls : List Knock) (now : Nat) :
    ((after allow l calls).allow key now).1 =
      ((((after allow l calls).windows.get? key).getD ⟨now, 0⟩).call l.maxRequests l.length now).1 := by
  obtain ⟨max, len⟩ := (apart l.maxRequests l.length).is_after (l := l) ⟨rfl, rfl⟩ calls
  rw [allow, max, len]

/-- **The window of a client** is that of its latest call, and counts those admitted in it. -/
theorem tracks_after (unseen : l.windows.get? key = none) (positive : 0 < l.length)
    {calls : List Knock} (forward : (readings key calls).Pairwise (· ≤ ·)) :
    Window.Tracks l.maxRequests.toNat l.length (readings key calls) (admitted allow l key calls)
      ((after allow l calls).windows.get? key) := by
  refine (apart l.maxRequests l.length).invariant ⟨rfl, rfl⟩ ?_ ?_ forward
  · rw [unseen]
    exact ⟨rfl, rfl⟩
  · exact fun tracks past => (tracks.call positive past).2

/-- **A call is admitted if and only if it is among the first of its window.** -/
theorem allow_iff (unseen : l.windows.get? key = none) (positive : 0 < l.length)
    {calls : List Knock} {now : Nat} (forward : (readings key calls).Pairwise (· ≤ ·))
    (past : ∀ t ∈ readings key calls, t ≤ now) :
    ((after allow l calls).allow key now).1 = true ↔
      Window.ahead l.length (readings key calls) now < l.maxRequests.toNat := by
  rw [allow_after, ((tracks_after unseen positive forward).call positive past).1,
    decide_eq_true_iff]

/-- **Who is turned away** finds that as many as are permitted were admitted in its window. -/
theorem le_countP_of_denied (unseen : l.windows.get? key = none) (positive : 0 < l.length)
    {calls : List Knock} {now : Nat} (forward : (readings key calls).Pairwise (· ≤ ·))
    (past : ∀ t ∈ readings key calls, t ≤ now)
    (denied : ((after allow l calls).allow key now).1 = false) :
    l.maxRequests.toNat ≤
      (admitted allow l key calls).countP fun t => t ≤ now ∧ now < t + l.length := by
  obtain ⟨w, -, -, -, lasts, covers, e⟩ :=
    (tracks_after unseen positive forward).window positive past
  rw [allow_after, e, Window.joined] at denied
  split at denied
  · cases denied
  · next full =>
    rw [← covers.since] at full
    refine Nat.le_trans (Nat.le_of_not_lt full) (List.countP_mono_left fun t ht since => ?_)
    have : t ≤ now := past t ((admitted_sublist _).subset ht)
    simp only [decide_eq_true_eq] at since ⊢
    omega

/-- **An interval as long as a window has at most twice as many admitted calls as are permitted.** -/
theorem countP_le_twice (unseen : l.windows.get? key = none) (positive : 0 < l.length)
    {calls : List Knock} (forward : (readings key calls).Pairwise (· ≤ ·)) (start : Int) :
    ((admitted allow l key calls).countP fun t : Nat => start ≤ t ∧ t < start + l.length) ≤
      2 * l.maxRequests.toNat := by
  induction calls using List.reverseRecOn with
  | nil => exact Nat.zero_le _
  | append_singleton calls k ih =>
    obtain ⟨before, -, order⟩ := List.pairwise_append.1 (readings_append calls [k] ▸ forward)
    by_cases inside : k.key = key ∧ start ≤ k.time ∧ k.time < start + l.length
    · -- no call came after the interval yet
      obtain ⟨rfl, -, ends⟩ := inside
      refine (tracks_after unseen positive forward).countP_le fun t ht => ?_
      have last : readings k.key [k] = [k.time] := by simp [readings, of]
      rw [readings_append, last] at ht
      rcases List.mem_append.1 ht with ht | ht
      · have : t ≤ k.time := order t ht _ (last ▸ List.mem_singleton_self _)
        omega
      · rw [List.mem_singleton.1 ht]
        exact ends
    · rw [admitted_snoc, List.countP_append]
      split
      case isFalse => exact ih before
      case isTrue passed =>
        rw [List.countP_cons_of_neg (by simpa using fun h => not_and.1 inside passed.1 h)]
        exact ih before

/-- **Fixed windows admit the first calls of each.** If a client's clock readings do not go
backwards, whoever else calls: a call is admitted if and only if fewer of the client's calls than are
permitted fell in its window before it; whoever is turned away has had so many admitted less than a
window's length before; and an interval of that length, whichever end of it is left out, never has
more than twice as many. -/
theorem windows_exact {l : FixedWindow} {key : String} {calls : List Knock}
    (unseen : l.windows.get? key = none) (positive : 0 < l.length)
    (forward : (readings key calls).Pairwise (· ≤ ·)) :
    (∀ before now later, calls = before ++ ⟨key, now⟩ :: later →
      (((after allow l before).allow key now).1 = true ↔
        Window.ahead l.length (readings key before) now < l.maxRequests.toNat) ∧
      (((after allow l before).allow key now).1 = false → l.maxRequests.toNat ≤
        (admitted allow l key before).countP fun t => t ≤ now ∧ now < t + l.length)) ∧
    ∀ start : Int,
      ((admitted allow l key calls).countP fun t : Nat => start ≤ t ∧ t < start + l.length) ≤
        2 * l.maxRequests.toNat ∧
      ((admitted allow l key calls).countP fun t : Nat => start < t ∧ t ≤ start + l.length) ≤
        2 * l.maxRequests.toNat := by
  refine ⟨fun before now later row => ?_, fun start => ⟨?_, ?_⟩⟩
  · rw [row, readings_append] at forward
    obtain ⟨sorted, -, order⟩ := List.pairwise_append.1 forward
    have past : ∀ t ∈ readings key before, t ≤ now := fun t ht =>
      order t ht now (by simp [readings, of])
    exact ⟨allow_iff unseen positive sorted past, le_countP_of_denied unseen positive sorted past⟩
  · exact countP_le_twice unseen positive forward start
  · -- times are whole numbers, so the interval may as well begin one later
    refine Nat.le_trans (List.countP_mono_left fun t _ ht => ?_)
      (countP_le_twice unseen positive forward (start + 1))
    simp only [decide_eq_true_eq] at ht ⊢
    omega

/-- Ann makes three calls in the first window and two just after it; Bob makes one. -/
def annsBurst : List Knock :=
  [⟨"Ann", 0⟩, ⟨"Ann", 9⟩, ⟨"Bob", 9⟩, ⟨"Ann", 9⟩, ⟨"Ann", 12⟩, ⟨"Ann", 13⟩]

/-- Of two calls per window of ten nanoseconds Ann is denied the third at 9. The next window opens at
12, where she makes two more: of those ten nanoseconds that begin at 9, three are hers. -/
theorem windows_exact_for_ann :
    (readings "Ann" annsBurst).Pairwise (· ≤ ·) ∧
    Window.starts 10 (readings "Ann" annsBurst) = [0, 0, 0, 12, 12] ∧
    admitted allow (new 2 10) "Ann" annsBurst = [0, 9, 12, 13] ∧
    2 ≤ ((admitted allow (new 2 10) "Ann" (annsBurst.take 3)).countP fun t => t ≤ 9 ∧ 9 < t + 10) ∧
    ∀ start : Int, ((admitted allow (new 2 10) "Ann" annsBurst).countP fun t : Nat =>
      start ≤ t ∧ t < start + 10) ≤ 4 := by
  have forward : (readings "Ann" annsBurst).Pairwise (· ≤ ·) := by decide
  obtain ⟨each, everywhere⟩ :=
    windows_exact (l := new 2 10) rfl (by decide) forward
  exact ⟨forward, rfl, rfl, (each (annsBurst.take 3) 9 _ rfl).2 rfl, fun start =>
    (everywhere start).1⟩

end FixedWindow

end Tenure
