import Tenure.Proofs.Service.Basic

/-!
# Serving requests for group bookings

A request to book is decided under the locks of the group and of all its resources. What
it found out on the way there, that the resources are known members and what their names
are, nobody can undo. Whether a booking still stands somebody can undo, which is why a
request to give it up looks again under the lock of the group; from then on nobody can.
-/

namespace Tenure.Ledger

variable {l l' l₀ : Ledger} {held : List Key} {m : Moment}

/-! ## Booking -/

/-- To which group a resource belongs does not depend on who has it. -/
theorem lasting_foreign (group : Id) : Lasting (foreign group) := fun _ _ => rfl

/-- Settling and then entering a group booking is permitted. -/
theorem permits_book (ord : Orderly l) (now : Int) (group : Id) (holder : String) {ids : List Id}
    (apart : ids.Nodup) (price : Float → Float) :
    conduct.Permits held l (l.book now group holder ids price).2 := by
  have settled : Settles now l (settleAll now (ascending ids) l).2 :=
    Settles.none.settleAll _
  rcases l.book_cases now group holder ids price with ⟨id, status, l', hs, e⟩ | ⟨l', l'', hs, e, enters⟩ <;>
    rw [hs] at settled <;> rw [e]
  · exact (settled.sameBooks.trans (quiet_count l' _).sameBooks).permits ord
  · have first := settled.sameBooks
    have permitted : conduct.Permits held l' l'' := enters.permits rfl apart (first.orderly ord)
    exact ⟨permitted.1, fun held' apart => (first.rely held').trans (permitted.2 held' apart)⟩

/-- **Booking a list in order** is decided on at one moment, when all locks are had; a lock that is not
to be had in time is the reason for the refusal. -/
theorem meets_bookListed (s : CoordinatorSettings) (group : Id) (holder : String) {ids : List Id}
    (price : Float → Float) (fine : listFault? holder ids = none) (h : Waited m l₀ l) :
    (bookListed s group holder ids price).Meets conduct (fun _ => Quiet)
      (fun _ => Decided .booking fun now l => l.bookAtOnce now group holder ids price)
      held m l₀ l := by
  have blind : ∀ now {l l' : Ledger}, Quiet l l' →
      Quietly (l.bookAtOnce now group holder ids price)
        (l'.bookAtOnce now group holder ids price) :=
    fun now _ _ q => q.bookAtOnce now group holder ids price
  refine meets_unless ?_ ?_
  · intro hg
    refine meets_done h.did blind ?_
    simp only [bookAtOnce, fine, hg]
    exact ⟨rfl, .refl l⟩
  · intro hg
    have stable : Stable held fun l => l.groups.contains group = true :=
      fun _ _ hg rely => (congrArg (Table.contains · group) rely.groups).trans hg
    have h : Underway (fun _ => Quiet) (fun l => l.groups.contains group = true) m l₀ l :=
      ⟨h.did, h.ord, hg⟩
    refine meets_lockDue (Call.meets_holdingUntil h.did ?_ ?_)
    · intro m' l₀' l' hr
      refine meets_underLocks tolerant_quiet (stable.mono (List.subset_cons_self _ _))
        (lasting_foreign group) (h.resumed tolerant_quiet stable hr) ?_ ?_ ?_
      · intro held' m' l₀' l' _ h' fine'
        have fine' : l'.firstFault? (foreign group) (ascending ids) = none := fine'
        refine Call.meets_update.2 ⟨permits_book h'.ord _ _ _ (nodup_of_listFault fine) _,
          .ofQuiet h'.did blind ?_⟩
        rw [bookAtOnce, fine, h'.knows, fine']
        exact ⟨rfl, .refl _⟩
      · intro m' l₀' l' e h' fault
        have fault : l'.firstFault? (foreign group) (ascending ids) = some e := fault
        refine .ofQuiet h'.did blind ?_
        rw [bookAtOnce, fine, h'.knows, fault]
        exact ⟨rfl, .refl _⟩
      · intro id held' m' l₀' l' h'
        exact meets_count h'.ord _ (.inl ⟨rfl, h'.did.count _⟩)
    · intro m' l₀' l' hr
      have h' := h.resumed tolerant_quiet stable hr
      exact meets_count h'.ord _ (.inl ⟨rfl, h'.did.count _⟩)

/-- **Booking a group** is that, if the list is one in order. -/
theorem meets_bookGroup (s : CoordinatorSettings) (group : Id) (holder : String) (ids : List Id)
    (price : Float → Float) (h : Waited m l₀ l) :
    (bookGroup s group holder ids price).Meets conduct (fun _ => Quiet)
      (fun _ => Decided .booking fun now l => l.bookAtOnce now group holder ids price)
      held m l₀ l := by
  obtain ⟨e, fault, refused⟩ | ⟨fine, listed⟩ := bookGroup_cases s group holder ids price
  · rw [refused]
    refine meets_done h.did (fun now _ _ q => q.bookAtOnce now group holder ids price) ?_
    simp only [bookAtOnce, fault]
    exact ⟨rfl, .refl l⟩
  · rw [listed]
    exact meets_bookListed s group holder price fine h

/-! ## Booking by name -/

/-- The names of resources stay. -/
theorem Akin.map_name (h : Akin l l') (id : Id) :
    (l'.resources.get? id).map Resource.name = (l.resources.get? id).map Resource.name := by
  have via : ∀ o : Option Resource,
      o.map Resource.name = (o.map Resource.blank).map Resource.name := by
    intro o
    cases o <;> rfl
  rw [via, h.blanks, ← via]

/-- Names last. -/
theorem Akin.nameOf (h : Akin l l') (id : Id) :
    (l'.resources.get? id).bind Resource.name = (l.resources.get? id).bind Resource.name := by
  have via : ∀ o : Option Resource, o.bind Resource.name = (o.map Resource.name).join := by
    intro o
    cases o <;> rfl
  rw [via, h.map_name, ← via]

/-- So do the members of a group. -/
theorem Akin.members (h : Akin l l') (group : Id) : l'.members group = l.members group := by
  simp only [Ledger.members]
  rw [h.groups]

/-- So a name means the same at any later time, -/
theorem Akin.named (h : Akin l l') (group : Id) (name : String) :
    l'.named group name = l.named group name := by
  simp only [Ledger.named, h.members, h.nameOf]

/-- and so does a list of names. -/
theorem Akin.allNamed (h : Akin l l') (group : Id) (names : List String) :
    l'.allNamed group names = l.allNamed group names := by
  induction names with
  | nil => rfl
  | cons name names ih => rw [Ledger.allNamed, Ledger.allNamed, ih, h.named]

/-- What is read of a resource, if that cannot change, is still so when it was read. -/
theorem meets_readOne {α : Type} (id : Id) (f : Resource → α) (h : Waited m l₀ l) :
    (readOne id f).Meets conduct (fun _ => Quiet)
      (fun _ m l₀ l o => Waited m l₀ l ∧ (l₀.resources.get? id).map f = o) held m l₀ l := by
  have same : ∀ {m} {l₀ l : Ledger}, Waited m l₀ l → l₀.resources = l.resources := by
    rintro m l₀ l ⟨⟨x, rfl⟩, -, -⟩
    rfl
  change Call.Meets conduct (fun _ => Quiet) _
    (if l.resources.contains id then
      Call.holding (.resource id) .shared (Call.gets fun l => (l.resources.get? id).map f)
    else .done none) held m l₀ l
  rw [Table.contains_eq_isSome]
  cases hr : l.resources.get? id with
  | none => exact ⟨h, by rw [same h, hr]; rfl⟩
  | some r =>
    refine Call.meets_holding h.did fun m' l₀' l' hr => ?_
    have h' := h.resumed tolerant_quiet stable_true hr
    exact ⟨h', by rw [same h']⟩

/-- **Looking a name up** among some resources finds what had the name when the look-up began, however
long it waits to read them. -/
theorem meets_findAmong (name : String) (ids : List Id) (h : Waited m l₀ l) :
    (findAmong name ids).Meets conduct (fun _ => Quiet)
      (fun _ m l₀ l o => Waited m l₀ l ∧
        ids.find? (fun id => (l₀.resources.get? id).bind Resource.name = some name) = o)
      held m l₀ l := by
  induction ids generalizing held m l₀ l with
  | nil => exact ⟨h, rfl⟩
  | cons id ids ih =>
    refine Call.meets_bind.2 ((meets_readOne id Resource.name h).mono (fun _ _ _ q => q) ?_)
    rintro held m l₀ l o ⟨h, rfl⟩
    -- if it is not this one it will not be, so what counts is what is found further on
    have lasting : ∀ (held : List Key) (l l' : Ledger),
        (l.resources.get? id).bind Resource.name ≠ some name → Rely held l l' →
          (l'.resources.get? id).bind Resource.name ≠ some name := by
      intro held l l' other rely
      rwa [rely.toAkin.nameOf]
    have further : (l₀.resources.get? id).bind Resource.name ≠ some name →
        (findAmong name ids).Meets conduct (fun _ => Quiet)
          (fun _ m l₀ l o => Waited m l₀ l ∧
            (id :: ids).find?
              (fun id => (l₀.resources.get? id).bind Resource.name = some name) = o)
          held m l₀ l := by
      intro other
      refine ((ih h).knowing lasting other
        (lasting held l₀ l other (h.did.sameBooks.rely held))).mono (fun _ _ _ q => q) ?_
      rintro held m l₀ l o ⟨⟨h, e⟩, other⟩
      exact ⟨h, by rw [List.find?_cons_of_neg (by simpa using other)]; exact e⟩
    cases hr : l₀.resources.get? id with
    | none => exact further (by rw [hr]; simp)
    | some r =>
      rw [Option.map_some]
      cases hn : r.name with
      | none => exact further (by rw [hr, Option.bind_some, hn]; simp)
      | some n =>
        dsimp only
        split
        · next same =>
          refine ⟨h, ?_⟩
          rw [List.find?_cons_of_pos (by simp [hr, hn, same])]
        · next other => exact further (by rw [hr, Option.bind_some, hn]; simpa using other)

/-- So it does in a group. -/
theorem meets_find (group : Id) (name : String) (h : Waited m l₀ l) :
    (find group name).Meets conduct (fun _ => Quiet)
      (fun _ m l₀ l o => Waited m l₀ l ∧ l₀.named group name = o) held m l₀ l := by
  have lasting : ∀ (held : List Key) (l' l'' : Ledger), l'.members group = l.members group →
      Rely held l' l'' → l''.members group = l.members group :=
    fun held l' l'' same rely => (rely.toAkin.members group).trans same
  have same : l₀.members group = l.members group :=
    (h.did.sameBooks.members group).symm
  refine ((meets_findAmong name (l.members group) h).knowing
    (J := fun l' => l'.members group = l.members group) lasting same rfl).mono
    (fun _ _ _ q => q) ?_
  rintro held m l₀ l o ⟨⟨h, e⟩, same⟩
  exact ⟨h, by rw [Ledger.named, same]; exact e⟩

/-- So do several look-ups in a row. -/
theorem meets_findAll (group : Id) (names : List String) (h : Waited m l₀ l) :
    (findAll group names).Meets conduct (fun _ => Quiet)
      (fun _ m l₀ l o => Waited m l₀ l ∧ l₀.allNamed group names = o) held m l₀ l := by
  induction names generalizing held m l₀ l with
  | nil => exact ⟨h, rfl⟩
  | cons name names ih =>
    refine Call.meets_bind.2 ((meets_find group name h).mono (fun _ _ _ q => q) ?_)
    rintro held m l₀ l o ⟨h, found⟩
    cases o with
    | none => exact ⟨h, by rw [Ledger.allNamed, found]⟩
    | some id =>
      have lasting : ∀ (held : List Key) (l l' : Ledger), l.named group name = some id →
          Rely held l l' → l'.named group name = some id :=
        fun held l l' found rely => (rely.toAkin.named group name).trans found
      refine Call.meets_bind.2 (((ih h).knowing lasting found
        (lasting held l₀ l found (h.did.sameBooks.rely held))).mono (fun _ _ _ q => q) ?_)
      rintro held m l₀ l o ⟨⟨h, others⟩, found⟩
      cases o with
      | none => exact ⟨h, by rw [Ledger.allNamed, found, others]; rfl⟩
      | some ids => exact ⟨h, by rw [Ledger.allNamed, found, others]; rfl⟩

/-- **Booking by name** is decided on at one moment like booking the resources that had the names. -/
theorem meets_bookByName (s : CoordinatorSettings) (group : Id) (holder : String)
    (names : List String) (price : Float → Float) (h : Waited m l₀ l) :
    (bookByName s group holder names price).Meets conduct (fun _ => Quiet)
      (fun _ => Decided .booking fun now l => l.bookByNameAtOnce now group holder names price)
      held m l₀ l := by
  refine Call.meets_bind.2 ((meets_findAll group names h).mono (fun _ _ _ q => q) ?_)
  rintro held m l₀ l o ⟨h, found⟩
  cases o with
  | none =>
    refine .inr ?_
    change Quietly (l₀.bookByNameAtOnce m.stamp group holder names price) _
    rw [bookByNameAtOnce, found]
    exact ⟨rfl, h.did⟩
  | some ids =>
    have lasting : ∀ (held : List Key) (l l' : Ledger), l.allNamed group names = some ids →
        Rely held l l' → l'.allNamed group names = some ids :=
      fun held l l' found rely => (rely.toAkin.allNamed group names).trans found
    refine ((meets_bookGroup s group holder ids price h).knowing lasting found
      (lasting held l₀ l found (h.did.sameBooks.rely held))).mono (fun _ _ _ q => q) ?_
    rintro held m l₀ l a ⟨late | done, found⟩
    · exact .inl late
    · refine .inr ?_
      change Quietly (l₀.bookByNameAtOnce m.stamp group holder names price) _
      rw [bookByNameAtOnce, found]
      exact done

/-! ## Giving up -/

/-- A booking that keeps everything but whether it stands is the same once it stands again. -/
theorem eq_of_standing {booking : Id} {b c : Booking} {status : BookingStatus}
    (before : l.standing booking = .ok b)
    (recorded : l'.bookings.get? booking = some { b with status := status })
    (after : l'.standing booking = .ok c) : b = c := by
  obtain ⟨-, confirmed⟩ := get?_of_standing before
  obtain ⟨hc, confirmed'⟩ := get?_of_standing after
  rw [recorded] at hc
  obtain rfl := Option.some.inj hc
  rw [show status = b.status from confirmed'.trans confirmed.symm]

/-- What is left to do once a booking is known to stand, under the lock of its group. -/
theorem meets_giveUp (s : CoordinatorSettings) {booking : Id} {holder : String} {b : Booking}
    {due : Nat} (locked : Key.group b.group ∈ held)
    (may : (s.policy = .strict && b.holder ≠ holder : Bool) = false)
    (h : Underway (fun _ => Quiet) (fun l => l.groups.contains b.group = true ∧
      l.standing booking = .ok b) m l₀ l) :
    (underLocks due (fun id => .done (.error (.lockTimeout id))) (fun _ _ => none)
      (Call.update fun _ l => (.ok (), l.cancelBooking b)) (ascending b.resources)).Meets
      conduct (fun _ => Quiet)
      (fun _ => Decided .done fun _ l => l.cancelGroupAtOnce s.policy booking holder)
      held m l₀ l := by
  have blind : ∀ _ : Int, ∀ {l l' : Ledger}, Quiet l l' →
      Quietly (l.cancelGroupAtOnce s.policy booking holder)
        (l'.cancelGroupAtOnce s.policy booking holder) :=
    fun _ _ _ q => q.cancelGroupAtOnce s.policy booking holder
  -- as long as the group is locked the booking stands
  have firm : Stable held fun l =>
      l.groups.contains b.group = true ∧ l.standing booking = .ok b := by
    rintro l l' ⟨hg, hs⟩ rely
    exact ⟨(congrArg (Table.contains · b.group) rely.groups).trans hg, rely.standing hs locked⟩
  have lasting : Lasting fun _ _ => none := fun _ _ => rfl
  refine meets_underLocks tolerant_quiet firm lasting h ?_ ?_ ?_
  · rintro held' m' l₀' l' more ⟨did, ord, hg, hs⟩ fine
    refine Call.meets_update.2 ⟨permits_cancelBooking ord hs (more locked), ?_⟩
    refine .ofQuiet did blind ?_
    simp only [cancelGroupAtOnce, hs, hg, may, fine]
    exact ⟨rfl, .refl _⟩
  · rintro m' l₀' l' e ⟨did, ord, hg, hs⟩ fault
    refine .ofQuiet did blind ?_
    simp only [cancelGroupAtOnce, hs, hg, may, fault]
    exact ⟨rfl, .refl _⟩
  · rintro id held' m' l₀' l' ⟨did, -, -⟩
    exact .inl ⟨rfl, did⟩

/-- **Giving a booking up** is decided on at one moment: that it stands is seen once more under the lock
of its group, and so it does until it is given up. -/
theorem meets_cancelGroup (s : CoordinatorSettings) (booking : Id) (holder : String)
    (h : Waited m l₀ l) :
    (cancelGroup s booking holder).Meets conduct (fun _ => Quiet)
      (fun _ => Decided .done fun _ l => l.cancelGroupAtOnce s.policy booking holder)
      held m l₀ l := by
  have blind : ∀ _ : Int, ∀ {l l' : Ledger}, Quiet l l' →
      Quietly (l.cancelGroupAtOnce s.policy booking holder)
        (l'.cancelGroupAtOnce s.policy booking holder) :=
    fun _ _ _ q => q.cancelGroupAtOnce s.policy booking holder
  -- a booking that does not stand
  have fallen : ∀ {m l₀ l e}, Waited m l₀ l → l.standing booking = .error e →
      Decided .done (fun _ l => l.cancelGroupAtOnce s.policy booking holder) m l₀ l (.error e) := by
    intro m l₀ l e h hs
    exact .ofQuiet h.did blind (by rw [cancelGroupAtOnce, hs]; exact ⟨rfl, .refl l⟩)
  cases hs : l.standing booking with
  | error e => exact meets_gets hs (fallen (m := m) h hs)
  | ok b =>
    refine meets_gets hs (meets_unless ?_ fun hg => meets_lockDue ?_)
    · intro hg
      refine meets_done h.did blind ?_
      simp only [cancelGroupAtOnce, hs, hg]
      exact ⟨rfl, .refl l⟩
    · -- during the wait for its group the booking keeps everything but whether it stands
      have stable : Stable held fun l => l.groups.contains b.group = true ∧
          ∃ status, l.bookings.get? booking = some { b with status := status } := by
        rintro l l' ⟨hg, status, hb⟩ rely
        obtain ⟨status', hb', -⟩ := rely.bookings booking _ hb
        exact ⟨(congrArg (Table.contains · b.group) rely.groups).trans hg, status', hb'⟩
      have h : Underway (fun _ => Quiet) (fun l => l.groups.contains b.group = true ∧
          ∃ status, l.bookings.get? booking = some { b with status := status }) m l₀ l :=
        ⟨h.did, h.ord, hg, b.status, (get?_of_standing hs).1⟩
      refine Call.meets_holdingUntil h.did (fun m' l₀' l' hr => ?_)
        fun m' l₀' l' hr => .inl ⟨rfl, (h.resumed tolerant_quiet stable hr).did⟩
      obtain ⟨did, ord, hg, status, hb⟩ := h.resumed tolerant_quiet stable hr
      cases hs' : l'.standing booking with
      | error e => exact meets_gets hs' (fallen (m := m') ⟨did, ord, trivial⟩ hs')
      | ok c =>
        obtain rfl := eq_of_standing hs hb hs'
        refine meets_gets hs' ?_
        dsimp only
        cases may : (s.policy = .strict && b.holder ≠ holder : Bool) with
        | true =>
          refine meets_done did blind ?_
          simp only [cancelGroupAtOnce, hs', hg, may]
          exact ⟨rfl, .refl l'⟩
        | false => exact meets_giveUp s List.mem_cons_self may ⟨did, ord, hg, hs'⟩

end Tenure.Ledger
