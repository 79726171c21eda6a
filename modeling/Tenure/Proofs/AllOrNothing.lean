import Mathlib.Data.List.Basic
import Tenure.Proofs.Agreement
import Tenure.Proofs.Alone.Requests

/-!
# All or nothing

A group booking made while nobody else holds a lock takes all of its resources or none
(`all_or_nothing`). It is granted exactly if every one of them is available, and then changes
these and no others (`Ledger.BooksAll`); else it is denied because of the smallest that is not
(`Ledger.FirstTaken`).

The order in which a caller lists the resources shows in the record of the booking and nowhere
else (`Ledger.SameOutcome`), since everything is done in ascending order (`ascending_perm`).
-/

namespace Tenure

namespace Ledger

variable {l l' l'' : Ledger} {now : Int} {group : Id} {holder : String} {ids ids' : List Id}
  {price : Float → Float}

/-! ## The first that somebody has -/

/-- The smallest of some resources that is not available at `now`, and the status it has. -/
structure FirstTaken (l : Ledger) (now : Int) (ids : List Id) (id : Id) (status : Status) :
    Prop where
  /-- it is one of them -/
  listed : id ∈ ids
  /-- somebody has it -/
  taken : ∃ r, l.resources.get? id = some r ∧ r.statusAt now = status ∧ status ≠ .available
  /-- all others that somebody has come after it -/
  least : ∀ id' ∈ ids, ∀ r, l.resources.get? id' = some r → r.statusAt now ≠ .available → id ≤ id'

/-- Settling stops at the first resource in the row that is not available. -/
theorem settleAll_taken {id : Id} {status : Status}
    (h : settleAll now ids l = (some (id, status), l')) :
    ∃ before after, ids = before ++ id :: after ∧
      (∀ id' ∈ before, ∀ s ∈ (l.resources.get? id').map fun r => r.statusAt now, s = .available) ∧
      (l.resources.get? id).map (fun r => r.statusAt now) = some status ∧ status ≠ .available := by
  induction ids generalizing l with
  | nil => cases h
  | cons first ids ih =>
    have found := l.get?_settle_self now first
    have rest : (∀ s ∈ (l.resources.get? first).map fun r => r.statusAt now, s = .available) →
        settleAll now ids (l.settle now first).2 = (some (id, status), l') →
        ∃ before after, first :: ids = before ++ id :: after ∧
          (∀ id' ∈ before, ∀ s ∈ (l.resources.get? id').map fun r => r.statusAt now,
            s = .available) ∧
          (l.resources.get? id).map (fun r => r.statusAt now) = some status ∧
            status ≠ .available := by
      intro free h
      -- what counts is the same before and after the first one was settled
      obtain ⟨before, after, rfl, clear, taken⟩ := ih h
      simp only [map_statusAt_settle] at clear taken
      exact ⟨first :: before, after, rfl, List.forall_mem_cons.2 ⟨free, clear⟩, taken⟩
    simp only [settleAll] at h
    cases hr : l.resources.get? first with
    | none =>
      rw [hr, Option.map_none] at found
      simp only [found] at h
      exact rest (by simp [hr]) h
    | some r =>
      rw [hr, Option.map_some] at found
      simp only [found, Resource.status_settled] at h
      split at h
      · next taken =>
        obtain ⟨⟨rfl, rfl⟩, -⟩ := by simpa using h
        exact ⟨[], ids, rfl, fun _ hid => absurd hid List.not_mem_nil, by rw [hr]; rfl, taken⟩
      · next free => exact rest (by simpa [hr] using free) h

/-- In ascending order the first one is the smallest. -/
theorem firstTaken_of_settleAll {id : Id} {status : Status}
    (h : settleAll now (ascending ids) l = (some (id, status), l')) :
    l.FirstTaken now ids id status := by
  obtain ⟨before, after, row, clear, counts, taken⟩ := settleAll_taken h
  obtain ⟨r₀, hr₀, hs⟩ := Option.map_eq_some_iff.1 counts
  have sorted := pairwise_ascending ids
  have listed : ∀ {id'}, id' ∈ ids ↔ id' ∈ before ++ id :: after := by
    intro id'
    rw [← row, mem_ascending]
  rw [row] at sorted
  obtain ⟨-, sorted, -⟩ := List.pairwise_append.1 sorted
  refine ⟨listed.2 (by simp), ⟨r₀, hr₀, hs, taken⟩, fun id' hid r hr held => ?_⟩
  rcases List.mem_append.1 (listed.1 hid) with hid | hid
  · exact absurd (clear id' hid _ (by simp [hr])) held
  · rcases List.mem_cons.1 hid with rfl | hid
    · exact Id.le_refl id'
    · exact (List.pairwise_cons.1 sorted).1 id' hid

/-! ## All of them -/

/-- What a claim on a resource costs. -/
def chargeOn (l : Ledger) (id : Id) : Option Float :=
  ((l.resources.get? id).bind Resource.claim).map Claim.price

/-- What becomes of a ledger when a group booking is granted at `now`. -/
structure BooksAll (l : Ledger) (now : Int) (group : Id) (holder : String) (ids : List Id)
    (price : Float → Float) (b : Booking) (l' : Ledger) : Prop where
  /-- the booking has a name under which nothing was booked before -/
  fresh : l.bookings.get? b.id = none ∧
    ∀ id r, l.resources.get? id = some r → r.claim.bind Claim.booking ≠ some b.id
  /-- it stands, for the holder, with the resources in the order asked for -/
  terms : b.group = group ∧ b.holder = holder ∧ b.resources = ids ∧ b.status = .confirmed ∧
    b.bookedAt = now
  /-- its total is the sum of what the claims cost, from zero and in ascending order -/
  total : b.total = ((ascending ids).filterMap l'.chargeOn).foldl (· + ·) 0.0
  /-- it is recorded, and nothing else is -/
  recorded : ∀ id, l'.bookings.get? id = if id = b.id then some b else l.bookings.get? id
  /-- every resource listed is booked -/
  booked : ∀ id ∈ ids, ∃ r, l.resources.get? id = some r ∧
    l'.resources.get? id = some
      { r with status := .booked, claim := some ⟨holder, price r.weight, none, r.generation, b.id⟩ }
  /-- no other one changes -/
  others : ∀ id, id ∉ ids → l'.resources.get? id = l.resources.get? id

theorem BooksAll.quiet {b : Booking} (h : l.BooksAll now group holder ids price b l')
    (quiet : Quiet l' l'') : l.BooksAll now group holder ids price b l'' := by
  obtain ⟨x, rfl⟩ := quiet
  exact ⟨h.fresh, h.terms, h.total, h.recorded, h.booked, h.others⟩

/-- The total, written as a sum of prices. -/
theorem totalPrice_eq (l : Ledger) (price : Float → Float) (ids : List Id) :
    l.totalPrice price ids =
      (ids.filterMap fun id => (l.resources.get? id).map fun r => price r.weight).foldl (· + ·)
        0.0 := by
  rw [totalPrice, List.foldl_filterMap]
  congr 1
  funext total id
  cases l.resources.get? id <;> rfl

/-- **Entering** a booking of resources that are available once they were settled. -/
theorem Enters.booksAll {b : Booking} (h : l'.Enters b price l'') (ord : Orderly l)
    (agreement : Agreement l) (settled : Settles now l l')
    (name : b.id = (l'.supply.draw .booking b.bookedAt).1)
    (terms : b.group = group ∧ b.holder = holder ∧ b.resources = ids ∧ b.status = .confirmed ∧
      b.bookedAt = now)
    (total : b.total = l'.totalPrice price (ascending ids))
    (found : ∀ id ∈ ids, ∃ r, l.resources.get? id = some r ∧
      l'.resources.get? id = some (r.settled now))
    (others : ∀ id, id ∉ ids → l'.resources.get? id = l.resources.get? id) :
    l.BooksAll now group holder ids price b l'' := by
  obtain ⟨-, holder, resources, -, -⟩ := id terms
  have same := settled.sameBooks
  have new : l.bookings.get? b.id = none := by
    rw [Option.eq_none_iff_forall_not_mem]
    intro b' hb'
    exact (same.orderly ord).ne_of_drawn (same.bookings.symm ▸ hb') name rfl
  have booked : ∀ id ∈ ids, ∃ r, l.resources.get? id = some r ∧
      l'.resources.get? id = some (r.settled now) ∧
      l''.resources.get? id = some (bookedBy (r.settled now) b.holder b.id price) := by
    intro id hid
    obtain ⟨r, hr, hr'⟩ := found id hid
    exact ⟨r, hr, hr', by rw [h.found, if_pos (resources ▸ hid), hr', Option.map_some]⟩
  refine ⟨⟨new, fun id r hr carries => ?_⟩, terms, ?_, ?_, ?_, ?_⟩
  · obtain ⟨b', hb', -⟩ := agreement.carried id r b.id hr carries
    rw [new] at hb'
    cases hb'
  · rw [total, totalPrice_eq]
    congr 1
    refine List.filterMap_congr fun id hid => ?_
    obtain ⟨r, -, hr', hr''⟩ := booked id (mem_ascending.1 hid)
    rw [chargeOn, hr', hr'']
    rfl
  · intro id
    rw [h.bookings, Table.get?_insert, same.bookings]
  · intro id hid
    obtain ⟨r, hr, -, hr''⟩ := booked id hid
    refine ⟨r, hr, hr''.trans ?_⟩
    rw [← holder]
    simp only [Resource.settled]
    split <;> rfl
  · intro id hid
    rw [h.found, if_neg (resources ▸ hid), others id hid]

/-- **All or nothing.** A group booking of known resources is granted exactly if all of them
are available; it then books them all, and else it is denied because of the first that
somebody has. -/
theorem book_all_or_nothing (ord : Orderly l) (agreement : Agreement l) (now : Int) (group : Id)
    (holder : String) {ids : List Id} (price : Float → Float)
    (known : ∀ id ∈ ids, ∃ r, l.resources.get? id = some r) :
    (∃ b, (l.book now group holder ids price).1 = .granted b ∧
      (∀ id ∈ ids, ∀ r, l.resources.get? id = some r → r.statusAt now = .available) ∧
      l.BooksAll now group holder ids price b (l.book now group holder ids price).2) ∨
    (∃ id status, (l.book now group holder ids price).1 = .denied (.notAvailable id status) ∧
      l.FirstTaken now ids id status) := by
  rcases l.book_cases now group holder ids price with
    ⟨id, status, l', hs, e⟩ | ⟨l', l'', hs, e, enters⟩ <;> rw [e]
  · exact .inr ⟨id, status, rfl, firstTaken_of_settleAll hs⟩
  · have settled : Settles now l l' := by
      have := (Settles.none : Settles now l l).settleAll (ascending ids)
      rwa [hs] at this
    have each := settleAll_spec hs
    refine .inl ⟨_, rfl, fun id hid => (each id (mem_ascending.2 hid)).2, ?_⟩
    refine enters.booksAll ord agreement settled rfl ⟨rfl, rfl, rfl, rfl, rfl⟩ rfl ?_ ?_
    · intro id hid
      obtain ⟨r, hr⟩ := known id hid
      refine ⟨r, hr, ?_⟩
      rw [(each id (mem_ascending.2 hid)).1, hr, Option.map_some]
    · intro id hid
      have kept := l.get?_settleAll now (mt mem_ascending.1 hid)
      rwa [hs] at kept

/-! ## What a list may be -/

/-- A list without a repeated entry is found to be one. -/
theorem firstRepeated_of_nodup {seen : List Id} (apart : ids.Nodup)
    (unseen : ∀ id ∈ ids, id ∉ seen) : firstRepeated seen ids = none := by
  induction ids generalizing seen with
  | nil => rfl
  | cons id ids ih =>
    obtain ⟨new, apart⟩ := List.nodup_cons.1 apart
    rw [firstRepeated, if_neg (unseen id List.mem_cons_self)]
    refine ih apart fun id' hid seen' => ?_
    rcases List.mem_cons.1 seen' with rfl | seen'
    · exact new hid
    · exact unseen id' (List.mem_cons_of_mem _ hid) seen'

/-- A group booking that nothing is wrong with is decided on. -/
theorem bookAtOnce_of_members (now : Int) (registered : l.groups.contains group = true)
    (valid : holderFault? holder = none) (any : ids ≠ []) (few : ids.length ≤ maxBookingSize)
    (apart : ids.Nodup)
    (members : ∀ id ∈ ids, ∃ r, l.resources.get? id = some r ∧ r.group = some group)
    (price : Float → Float) :
    l.bookAtOnce now group holder ids price =
      (.ok (l.book now group holder ids price).1, (l.book now group holder ids price).2) := by
  have fine : listFault? holder ids = none := by
    simp only [listFault?, valid, List.isEmpty_iff, if_neg any, if_neg (Nat.not_lt.2 few),
      firstRepeated_of_nodup apart fun _ _ => List.not_mem_nil, Option.map_none]
  have own : l.firstFault? (foreign group) (ascending ids) = none := by
    refine List.findSome?_eq_none_iff.2 fun id hid => ?_
    obtain ⟨r, hr, member⟩ := members id (mem_ascending.1 hid)
    simp only [fault?, hr, foreign, if_pos member]
  simp only [bookAtOnce, fine, registered, own, Bool.not_true, Bool.false_eq_true, if_false]

/-! ## The order in which a caller lists resources -/

/-- In ascending order it does not matter how a list was ordered. -/
theorem ascending_perm (same : ids.Perm ids') : ascending ids = ascending ids' :=
  List.Perm.eq_of_pairwise (fun _ _ _ _ => Id.le_antisymm) (pairwise_ascending ids)
    (pairwise_ascending ids') ((sortBy_perm ids).trans (same.trans (sortBy_perm ids').symm))

/-- What is wrong with a list by itself is wrong with it in any order. -/
theorem listFault_perm (holder : String) (apart : ids.Nodup) (same : ids.Perm ids') :
    listFault? holder ids = listFault? holder ids' := by
  have first : firstRepeated [] ids = none :=
    firstRepeated_of_nodup apart fun _ _ => List.not_mem_nil
  have second : firstRepeated [] ids' = none :=
    firstRepeated_of_nodup (same.nodup_iff.1 apart) fun _ _ => List.not_mem_nil
  have empty : ids.isEmpty = ids'.isEmpty := by
    rw [Bool.eq_iff_iff, List.isEmpty_iff, List.isEmpty_iff]
    exact ⟨fun e => (e ▸ same).nil_eq.symm, fun e => (e ▸ same).eq_nil⟩
  simp only [listFault?, first, second, empty, same.length_eq]

/-- Answers that differ at most in the order in which a booking lists its resources. -/
inductive SameOutcome : Except CallError (Reservation Booking) →
    Except CallError (Reservation Booking) → Prop where
  /-- refused for the same reason -/
  | error (e : CallError) : SameOutcome (.error e) (.error e)
  /-- denied for the same reason -/
  | denied (reason : Denial) : SameOutcome (.ok (.denied reason)) (.ok (.denied reason))
  /-- granted on the same terms, for the same total -/
  | granted (b : Booking) {ids : List Id} (same : b.resources.Perm ids) :
    SameOutcome (.ok (.granted b)) (.ok (.granted { b with resources := ids }))

/-- Same answers, up to the order of resources in a booking, and the same resources after it. -/
def SameButOrder (r r' : Except CallError (Reservation Booking) × Ledger) : Prop :=
  SameOutcome r.1 r'.1 ∧ r'.2.resources = r.2.resources

theorem book_perm (l : Ledger) (now : Int) (group : Id) (holder : String) (price : Float → Float)
    (same : ids.Perm ids') :
    SameButOrder (.ok (l.book now group holder ids price).1, (l.book now group holder ids price).2)
      (.ok (l.book now group holder ids' price).1, (l.book now group holder ids' price).2) := by
  simp only [book, ← ascending_perm same]
  cases settleAll now (ascending ids) l with
  | mk found l₁ =>
    cases found with
    | some taken => exact ⟨.denied _, rfl⟩
    | none => exact ⟨.granted _ same, rfl⟩

/-- **The order of the list has no say** in how a group booking comes out. -/
theorem bookAtOnce_perm (l : Ledger) (now : Int) (group : Id) (holder : String)
    (price : Float → Float) (apart : ids.Nodup) (same : ids.Perm ids') :
    SameButOrder (l.bookAtOnce now group holder ids price)
      (l.bookAtOnce now group holder ids' price) := by
  simp only [bookAtOnce, ← listFault_perm holder apart same, ← ascending_perm same]
  split
  · exact ⟨.error _, rfl⟩
  · split
    · exact ⟨.error _, rfl⟩
    · split
      · exact ⟨.error _, rfl⟩
      · exact l.book_perm now group holder price same

end Ledger

/-! ## Every reachable state -/

namespace Traffic

open Ledger

variable {s : CoordinatorSettings} {origin : Int} {l₀ : Ledger} {t : Traffic Ledger Reply}

/-- **All or nothing.** Whoever asks for a group booking in a reachable state in which all locks
are free is answered at once.

Members of a registered group, at most as many as may be booked together and none of them
twice, are booked for a valid holder exactly if all of them are available. Then just these
change, and there is one more booking; else the answer names the smallest that is not
available, with its status.

Whatever is listed, as long as nothing is listed twice, the order of the list has no say in
the answer and in what becomes of the resources. -/
theorem all_or_nothing (start : l₀.Untouched) (h : Moves (Party s) (Traffic.start origin l₀) t)
    (free : t.locks.Free) (owner : Owner) (group : Id) (holder : String) (price : Float → Float) :
    (∀ ids, t.shared.groups.contains group = true → holderFault? holder = none → ids ≠ [] →
      ids.length ≤ maxBookingSize → ids.Nodup →
      (∀ id ∈ ids, ∃ r, t.shared.resources.get? id = some r ∧ r.group = some group) →
      ∃ outcome l' ls',
        (bookGroup s group holder ids price).run owner t.clock t.shared t.locks =
          (.returned (.ok outcome), l', ls') ∧ ls'.Free ∧
        ((∃ b, outcome = .granted b) ↔ ∀ id ∈ ids, ∀ r, t.shared.resources.get? id = some r →
          r.statusAt t.clock.stamp = .available) ∧
        (∀ b, outcome = .granted b →
          t.shared.BooksAll t.clock.stamp group holder ids price b l') ∧
        (∀ reason, outcome = .denied reason → ∃ id status, reason = .notAvailable id status ∧
          t.shared.FirstTaken t.clock.stamp ids id status)) ∧
    ∀ ids ids', ids.Nodup → ids.Perm ids' → ∃ a a' l' l'' ls' ls'',
      (bookGroup s group holder ids price).run owner t.clock t.shared t.locks =
        (.returned a, l', ls') ∧
      (bookGroup s group holder ids' price).run owner t.clock t.shared t.locks =
        (.returned a', l'', ls'') ∧
      SameButOrder (a, l') (a', l'') := by
  have ⟨kept, agreement⟩ := h.agreement start
  have answered (ids : List Id) : ∃ a l' ls',
      (bookGroup s group holder ids price).run owner t.clock t.shared t.locks =
        (.returned a, l', ls') ∧ ls'.Free ∧
      Quietly (t.shared.bookAtOnce t.clock.stamp group holder ids price) (a, l') :=
    (freely_bookGroup s group holder ids price).run free owner
  refine ⟨fun ids registered valid any few apart members => ?_, fun ids ids' apart same => ?_⟩
  · obtain ⟨a, l', ls', run, free', answer, quiet⟩ := answered ids
    rw [bookAtOnce_of_members _ registered valid any few apart members] at answer quiet
    obtain rfl := answer
    refine ⟨_, l', ls', run, free', ?_⟩
    have known : ∀ id ∈ ids, ∃ r, t.shared.resources.get? id = some r := fun id hid =>
      (members id hid).imp fun _ member => member.1
    obtain ⟨b, granted, all, books⟩ | ⟨id, status, denied, first⟩ :=
      book_all_or_nothing kept.inv agreement t.clock.stamp group holder price known
    · rw [granted]
      refine ⟨⟨fun _ => all, fun _ => ⟨b, rfl⟩⟩, fun b' e => ?_, fun _ e => (nomatch e)⟩
      cases e
      exact books.quiet quiet
    · rw [denied]
      refine ⟨⟨fun granted => ?_, fun all => ?_⟩, fun _ e => (nomatch e), fun reason e => ?_⟩
      · obtain ⟨b, e⟩ := granted
        cases e
      · obtain ⟨r, hr, rfl, taken⟩ := first.taken
        exact absurd (all id first.listed r hr) taken
      · cases e
        exact ⟨id, status, rfl, first⟩
  · obtain ⟨a, l', ls', run, -, answer, quiet⟩ := answered ids
    obtain ⟨a', l'', ls'', run', -, answer', quiet'⟩ := answered ids'
    obtain ⟨outcome, resources⟩ :=
      t.shared.bookAtOnce_perm t.clock.stamp group holder price apart same
    rw [answer, answer'] at outcome
    exact ⟨a, a', l', l'', ls', ls'', run, run', outcome,
      quiet'.resources.trans (resources.trans quiet.resources.symm)⟩

/-- So it is when Alice books both seats of a hall in which nobody has been yet. -/
theorem all_or_nothing_for_alice :
    Ledger.hallOfTwo.Untouched ∧
    Moves (Party .standard) (Traffic.start 0 Ledger.hallOfTwo) (Traffic.start 0 Ledger.hallOfTwo) ∧
    Locks.empty.Free ∧
    ∃ b l' ls', (bookGroup .standard ⟨0, 3⟩ "Alice" [⟨0, 2⟩, ⟨0, 1⟩] id).run 0 ⟨0, 0⟩
        Ledger.hallOfTwo Locks.empty = (.returned (.ok (.granted b)), l', ls') ∧
      Ledger.hallOfTwo.BooksAll 0 ⟨0, 3⟩ "Alice" [⟨0, 2⟩, ⟨0, 1⟩] id b l' := by
  have start := Ledger.untouched_hallOfTwo
  have moves : Moves (Party .standard) (Traffic.start 0 Ledger.hallOfTwo)
      (Traffic.start 0 Ledger.hallOfTwo) := .none
  obtain ⟨both, -⟩ := all_or_nothing start moves Locks.free_empty 0 ⟨0, 3⟩ "Alice" id
  have members : ∀ id ∈ [(⟨0, 2⟩ : Id), ⟨0, 1⟩], ∃ r,
      Ledger.hallOfTwo.resources.get? id = some r ∧ r.group = some ⟨0, 3⟩ := by
    intro id hid
    rcases List.mem_cons.1 hid with rfl | hid
    · exact ⟨_, rfl, rfl⟩
    · obtain rfl := List.mem_singleton.1 hid
      exact ⟨_, rfl, rfl⟩
  obtain ⟨outcome, l', ls', run, -, granted, books, -⟩ :=
    both [⟨0, 2⟩, ⟨0, 1⟩] rfl (by decide) (by simp) (by decide) (by decide) members
  obtain ⟨b, rfl⟩ := granted.2 fun id hid r hr => by
    have free := (start.resources id r hr).1
    rw [Resource.statusAt_of_not_lapsed (by simp [Resource.lapsed, free]), free]
  exact ⟨start, moves, Locks.free_empty, b, l', ls', run, books b rfl⟩

end Traffic

end Tenure
