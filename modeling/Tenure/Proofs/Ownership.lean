import Tenure.Proofs.Agreement

/-!
# Whose claim it is

Under the strict policy nobody but the holder can do anything about a claim, as long as it
has not lapsed. `Ledger.Change` lists all that can become of the claim on a resource in one
move, each with who did it: that is part of a reply which comes back in that very move.

Decisions at once change claims in no other way (`change_of_atOnce`), nor do chores as long
as the wall clock does not go backwards. So it is with every move of every history
(`claims_change_only`); in particular what somebody has is not touched by anybody else.
-/

namespace Tenure

/-! ## A clock that does not go backwards -/

/-- The wall clock has not gone backwards up to this moment. -/
def Moment.Steady (m : Moment) : Prop :=
  ∀ m₁ m₂ : Moment, m₁.Before m₂ → m₂.Before m → m₁.stamp ≤ m₂.stamp

/-- The clock did not go backwards before it came to this moment either. -/
theorem Moment.Steady.before {m m' : Moment} (steady : m'.Steady) (time : m.Before m') : m.Steady :=
  fun m₁ m₂ h h' => steady m₁ m₂ h (h'.trans time)

/-- It does not, unless it counts past what a wall time can represent. -/
theorem Moment.steady_of_le {m : Moment} (h : m.origin + m.elapsed ≤ Stamp.latest) :
    m.Steady := by
  have inRange : ∀ x : Int, 0 ≤ x → x ≤ Stamp.latest → x.bmod UInt64.size = x := by
    intro x h₁ h₂
    simp only [Stamp.latest] at h₂
    exact Int.bmod_eq_of_le (by unfold UInt64.size; omega) (by unfold UInt64.size; omega)
  rintro m₁ m₂ ⟨o₁, e₁⟩ ⟨o₂, e₂⟩
  simp only [Moment.stamp]
  rw [o₁]
  split
  · split
    · exact Int.le_refl 0
    · next h₁ h₂ =>
      rw [inRange _ (by omega) (by rw [o₂]; omega)]
      omega
  · next h₁ =>
    rw [if_neg (by omega), inRange _ (by omega) (by rw [o₂]; omega),
      inRange _ (by omega) (by rw [o₂]; omega)]
    omega

namespace Ledger

/-! ## All that can become of a claim -/

/-- What can become of the claim on the resource `id` in one move at the wall time `now`,
from `r` to `r'`; `did` are the replies that come back in this move. -/
inductive Change (did : Reply → Prop) (now : Int) (id : Id) (r r' : Resource) : Prop where
  /-- nothing -/
  | kept (same : r'.claim = r.claim)
  /-- it was a hold whose deadline has come -/
  | lapsed (gone : r.lapsed now = true) (none : r'.claim = none)
  /-- somebody got a hold on a resource that was available -/
  | held (request : Request) (h : Hold)
    (asked : did (.answered request (.hold (.ok (.granted h)))))
    (kind : request.ForHold id) (own : request.holder = h.holder) (here : h.id = id)
    (free : r.statusAt now = .available) (old : r.claim = none ∨ r.lapsed now = true)
    (new : r'.claim = some ⟨h.holder, h.price, some h.deadline, h.generation, none⟩)
  /-- somebody got a booking of resources that were available -/
  | booked (request : Request) (b : Booking) (price : Float)
    (asked : did (.answered request (.booking (.ok (.granted b)))))
    (kind : request.ForBooking b.group) (own : request.holder = b.holder) (here : id ∈ b.resources)
    (free : r.statusAt now = .available) (old : r.claim = none ∨ r.lapsed now = true)
    (new : r'.claim = some ⟨b.holder, price, none, r.generation, some b.id⟩)
  /-- its holder confirmed it before its deadline -/
  | confirmed (c : Claim) (asked : did (.answered (.confirm id c.holder) (.done (.ok ()))))
    (old : r.claim = some c) (inTime : ∃ deadline, c.deadline = some deadline ∧ now < deadline)
    (new : r'.claim = some { c with deadline := none })
  /-- its holder cancelled it, before its deadline if it had one -/
  | cancelled (c : Claim) (asked : did (.answered (.cancel id c.holder) (.done (.ok ()))))
    (old : r.claim = some c) (single : c.booking = none)
    (inTime : ∀ deadline, c.deadline = some deadline → now < deadline) (none : r'.claim = none)
  /-- its holder cancelled the group booking that it was part of -/
  | givenUp (c : Claim) (booking : Id)
    (asked : did (.answered (.cancelGroup booking c.holder) (.done (.ok ()))))
    (old : r.claim = some c) (part : c.booking = some booking) (none : r'.claim = none)

/-- What can become of the claims in one move. No resource comes or goes. -/
structure Changes (did : Reply → Prop) (now : Int) (l l' : Ledger) : Prop where
  /-- what was known still is, with a claim that came about in one of these ways -/
  known : ∀ id r, l.resources.get? id = some r →
    ∃ r', l'.resources.get? id = some r' ∧ Change did now id r r'
  /-- what was unknown still is -/
  unknown : ∀ id, l.resources.get? id = none → l'.resources.get? id = none

variable {did : Reply → Prop} {now : Int} {l l' : Ledger} {id : Id}

theorem Changes.refl (l : Ledger) : Changes did now l l :=
  ⟨fun _ r hr => ⟨r, hr, .kept rfl⟩, fun _ h => h⟩

/-- What is not about resources does not matter. -/
theorem Changes.congr {l'' : Ledger} (h : Changes did now l l')
    (same : l''.resources = l'.resources) : Changes did now l l'' :=
  ⟨fun id r hr => same ▸ h.known id r hr, fun id hr => same ▸ h.unknown id hr⟩

/-- A claim changes on one resource only. -/
theorem Changes.ofOne {f : Resource → Resource}
    (found : ∀ id', l'.resources.get? id' =
      if id' = id then (l.resources.get? id).map f else l.resources.get? id')
    (change : ∀ r, l.resources.get? id = some r → Change did now id r (f r)) :
    Changes did now l l' := by
  refine ⟨?_, ?_⟩
  · intro id' r hr
    rw [found]
    split
    · next same =>
      subst same
      exact ⟨f r, by rw [hr, Option.map_some], change r hr⟩
    · exact ⟨r, hr, .kept rfl⟩
  · intro id' hr
    rw [found]
    split
    · next same => rw [← same, hr, Option.map_none]
    · exact hr

/-! ## Lapsing -/

theorem Change.settled (r : Resource) : Change did now id r (r.settled now) := by
  cases h : r.lapsed now with
  | true => exact .lapsed h (by rw [Resource.settled_of_lapsed h]; rfl)
  | false => exact .kept (by rw [Resource.settled_of_not_lapsed h])

theorem changes_settle (l : Ledger) (now : Int) (id : Id) :
    Changes did now l (l.settle now id).2 :=
  .ofOne (l.get?_settle now id) fun r _ => .settled r

theorem Settles.changes (h : Settles now l l') : Changes did now l l' := by
  refine ⟨?_, ?_⟩
  · intro id r hr
    rcases h.get? id with e | e <;> rw [e, hr]
    · exact ⟨r, rfl, .kept rfl⟩
    · exact ⟨r.settled now, rfl, .settled r⟩
  · intro id hr
    rcases h.get? id with e | e <;> rw [e, hr]
    rfl

/-- Whatever had lapsed at an earlier time has lapsed by now. -/
theorem lapsed_mono {r : Resource} {now now' : Int} (h : r.lapsed now = true) (le : now ≤ now') :
    r.lapsed now' = true := by
  obtain ⟨hs, c, t, hc, ht, hle⟩ := Resource.lapsed_iff.1 h
  exact Resource.lapsed_iff.2 ⟨hs, c, t, hc, ht, Int.le_trans hle le⟩

/-- Upkeep does nothing to a resource but free it if its hold has lapsed. -/
theorem Upkeep.get? {m : Moment} (h : Upkeep m l l') (steady : m.Steady) (id : Id) :
    l'.resources.get? id = l.resources.get? id ∨
      ∃ r, l.resources.get? id = some r ∧ r.lapsed m.stamp = true ∧
        l'.resources.get? id = some r.freed := by
  induction h with
  | none => exact .inl rfl
  | tidy _ _ _ _ ih => exact ih
  | @settle l' _ m' time id' ih =>
    rw [get?_settle]
    split
    · next same =>
      subst same
      rcases ih with e | ⟨r, hr, hl, e⟩ <;> rw [e]
      · cases hr : l.resources.get? id with
        | none => exact .inl rfl
        | some r =>
          cases hl : r.lapsed m'.stamp with
          | false => exact .inl (by rw [Option.map_some, Resource.settled_of_not_lapsed hl])
          | true =>
            refine .inr ⟨r, rfl, lapsed_mono hl (steady m' m time (.refl m)), ?_⟩
            rw [Option.map_some, Resource.settled_of_lapsed hl]
      · exact .inr ⟨r, hr, hl, rfl⟩
    · exact ih

theorem Upkeep.changes {m : Moment} (h : Upkeep m l l') (steady : m.Steady) :
    Changes did m.stamp l l' := by
  refine ⟨?_, ?_⟩
  · intro id r hr
    rcases h.get? steady id with e | ⟨r', hr', hl, e⟩
    · exact ⟨r, e.trans hr, .kept rfl⟩
    · rw [hr] at hr'
      obtain rfl := Option.some.inj hr'
      exact ⟨r.freed, e, .lapsed hl rfl⟩
  · intro id hr
    rcases h.get? steady id with e | ⟨r', hr', -, -⟩
    · exact e.trans hr
    · rw [hr] at hr'
      cases hr'

/-! ## Decisions -/

/-- A resource that counts as available has no claim on it, or one that has lapsed. -/
theorem Agreement.old_of_free (h : Agreement l) {r : Resource} (hr : l.resources.get? id = some r)
    (free : r.statusAt now = .available) : r.claim = none ∨ r.lapsed now = true := by
  cases hl : r.lapsed now with
  | true => exact .inr rfl
  | false =>
    rw [Resource.statusAt_of_not_lapsed hl] at free
    exact .inl ((h.resources id r hr).available.1 free)

theorem not_lapsed_iff {r : Resource} (hs : r.status = .reserved) {c : Claim}
    (hc : r.claim = some c) (live : r.lapsed now = false) :
    ∀ deadline, c.deadline = some deadline → now < deadline := by
  intro deadline hd
  refine Int.not_le.1 fun le => ?_
  rw [Resource.lapsed_iff.2 ⟨hs, c, deadline, hc, hd, le⟩] at live
  cases live

/-- Under the strict policy whoever may touch a claim is its holder. -/
theorem holder_of_may {r : Resource} {holder : String} {c : Claim} (hc : r.claim = some c)
    (may : mayNot .strict r holder = false) : c.holder = holder := by
  simpa [mayNot, Resource.holder, hc] using may

theorem changes_place (agreement : Agreement l) {request : Request} (now : Int) (id : Id)
    {holder : String} (millis : Nat) (price : Float → Float) (kind : request.ForHold id)
    (own : request.holder = holder)
    (asked : ∀ h, (l.place now id holder millis price).1 = .ok (.granted h) →
      did (.answered request (.hold (.ok (.granted h))))) :
    Changes did now l (l.place now id holder millis price).2 := by
  rcases l.place_cases now id holder millis price with ⟨-, e⟩ | ⟨r, -, -, -, e⟩ | ⟨r, hr, free, e⟩
  · rw [e]
    exact .refl l
  · rw [e]
    exact (Changes.refl l).congr rfl
  · have placed := asked _ (by rw [e])
    rw [e]
    have found : ∀ id', ((l.settle now id).2.turn id true fun r' =>
        Ledger.held r' (holdOn (r.settled now) now id holder millis price)).resources.get? id' =
        if id' = id then (l.resources.get? id).map fun r' =>
          Ledger.held (r'.settled now) (holdOn (r.settled now) now id holder millis price)
        else l.resources.get? id' := by
      intro id'
      rw [get?_turn, get?_settle, get?_settle, if_pos rfl, Option.map_map]
      split <;> rfl
    exact (Changes.ofOne found fun r' hr' =>
      .held request _ placed kind own rfl (by rw [hr] at hr'; cases hr'; exact free)
        (agreement.old_of_free hr' (by rw [hr] at hr'; cases hr'; exact free)) rfl).congr rfl

theorem changes_confirm (agreement : Agreement l) (now : Int) (id : Id) (holder : String)
    (asked : (l.confirm .strict now id holder).1 = .ok () →
      did (.answered (.confirm id holder) (.done (.ok ())))) :
    Changes did now l (l.confirm .strict now id holder).2 := by
  rcases l.confirm_cases .strict now id holder with
    ⟨err, -, e⟩ | ⟨r, c, hr, live, hs, may, hc, e⟩
  · rw [e]
    exact changes_settle l now id
  · have done := asked (by rw [e])
    rw [e]
    obtain rfl := holder_of_may hc may
    refine (Changes.ofOne (l.get?_turn id · true Ledger.confirmed) fun r' hr' => ?_).congr rfl
    rw [hr] at hr'
    obtain rfl := Option.some.inj hr'
    obtain ⟨c', t, hc', ht, -⟩ := (agreement.resources id r hr).reserved hs
    rw [hc] at hc'
    obtain rfl := Option.some.inj hc'
    refine .confirmed c done hc ⟨t, ht, not_lapsed_iff hs hc live t ht⟩ ?_
    rw [Ledger.confirmed, hc]
    rfl

theorem changes_cancel (agreement : Agreement l) (now : Int) (id : Id) (holder : String)
    (asked : (l.cancel .strict now id holder).1 = .ok () →
      did (.answered (.cancel id holder) (.done (.ok ())))) :
    Changes did now l (l.cancel .strict now id holder).2 := by
  rcases l.cancel_cases .strict now id holder with
    ⟨err, -, e⟩ | ⟨r, hr, live, hs, may, single, e⟩
  · rw [e]
    exact changes_settle l now id
  · have done := asked (by rw [e])
    rw [e]
    refine (Changes.ofOne (l.get?_turn id · true Resource.freed) fun r' hr' => ?_).congr rfl
    rw [hr] at hr'
    obtain rfl := Option.some.inj hr'
    have agrees := agreement.resources id r hr
    cases hc : r.claim with
    | none => exact absurd (agrees.available.2 hc) hs
    | some c =>
      obtain rfl := holder_of_may hc may
      rw [hc, Option.bind_some] at single
      refine .cancelled c done hc single (fun deadline hd => ?_) rfl
      -- only a hold has a deadline
      cases hs' : r.status with
      | available => exact absurd hs' hs
      | reserved => exact not_lapsed_iff hs' hc live deadline hd
      | booked =>
        obtain ⟨c', hc', none⟩ := agrees.booked hs'
        rw [hc] at hc'
        obtain rfl := Option.some.inj hc'
        rw [none] at hd
        cases hd

theorem changes_book (agreement : Agreement l) {request : Request} (now : Int) (group : Id)
    {holder : String} (ids : List Id) (price : Float → Float) (kind : request.ForBooking group)
    (own : request.holder = holder)
    (asked : ∀ b, (l.book now group holder ids price).1 = .granted b →
      did (.answered request (.booking (.ok (.granted b))))) :
    Changes did now l (l.book now group holder ids price).2 := by
  have settled : Settles now l (settleAll now (ascending ids) l).2 :=
    Settles.none.settleAll _
  rcases l.book_cases now group holder ids price with
    ⟨id, status, l', hs, e⟩ | ⟨l', l'', hs, e, enters⟩ <;> rw [hs] at settled
  · rw [e]
    exact (settled.changes).congr rfl
  · have done := asked _ (by rw [e])
    rw [e]
    have changes : Changes did now l l' := settled.changes
    refine ⟨?_, ?_⟩
    · intro id r hr
      change ∃ r', l''.resources.get? id = some r' ∧ _
      rw [enters.found]
      split
      · next hid =>
        obtain ⟨found, free⟩ := settleAll_spec hs id (mem_ascending.2 hid)
        rw [hr, Option.map_some] at found
        rw [found, Option.map_some]
        refine ⟨_, rfl, .booked request _ (price (r.settled now).weight) done kind own hid (free r hr)
          (agreement.old_of_free hr (free r hr)) ?_⟩
        rw [bookedBy, Resource.generation_settled]
      · exact changes.known id r hr
    · intro id hr
      change l''.resources.get? id = none
      rw [enters.found, changes.unknown id hr]
      split <;> rfl

theorem changes_cancelBooking (agreement : Agreement l) (ord : Orderly l) {booking : Id}
    {b : Booking} (stands : l.standing booking = .ok b)
    (asked : did (.answered (.cancelGroup booking b.holder) (.done (.ok ())))) :
    Changes did now l (l.cancelBooking b) := by
  obtain ⟨hb, confirmed⟩ := get?_of_standing stands
  obtain rfl := ord.filed booking b hb
  refine ⟨?_, ?_⟩
  · intro id r hr
    rw [get?_cancelBooking]
    split
    · next hid =>
      obtain ⟨r', hr', belongs⟩ := agreement.listed b.id b hb confirmed id hid
      rw [hr] at hr'
      obtain rfl := Option.some.inj hr'
      refine ⟨r.freed, ?_, ?_⟩
      · rw [hr, Option.map_some, Resource.givenUp, if_pos belongs.booking]
      · obtain ⟨c, hc, part, own, -⟩ := belongs
        exact .givenUp c b.id (own ▸ asked) hc part rfl
    · exact ⟨r, hr, .kept rfl⟩
  · intro id hr
    rw [get?_cancelBooking, hr]
    split <;> rfl

theorem changes_bookAtOnce (agreement : Agreement l) {request : Request} (now : Int) (group : Id)
    {holder : String} (ids : List Id) (price : Float → Float) (kind : request.ForBooking group)
    (own : request.holder = holder)
    (asked : ∀ b, (l.bookAtOnce now group holder ids price).1 = .ok (.granted b) →
      did (.answered request (.booking (.ok (.granted b))))) :
    Changes did now l (l.bookAtOnce now group holder ids price).2 := by
  obtain ⟨e, refused⟩ | ⟨-, -, decided⟩ := l.bookAtOnce_cases now group holder ids price
  · rw [refused]
    exact .refl l
  · rw [decided] at asked ⊢
    exact changes_book agreement now group ids price kind own fun b hb => asked b (congrArg _ hb)

theorem changes_reserveAtOnce (agreement : Agreement l) {request : Request} (now : Int) (id : Id)
    {holder : String} (duration : Nat) (price : Float → Float) (kind : request.ForHold id)
    (own : request.holder = holder)
    (asked : ∀ h, (l.reserveAtOnce now id holder duration price).1 = .ok (.granted h) →
      did (.answered request (.hold (.ok (.granted h))))) :
    Changes did now l (l.reserveAtOnce now id holder duration price).2 := by
  obtain ⟨e, refused⟩ | placed := l.reserveAtOnce_cases now id holder duration price
  · rw [refused]
    exact .refl l
  · rw [placed] at asked ⊢
    exact changes_place agreement now id _ price kind own asked

/-- **Requests decided at once** change claims in no other way. -/
theorem change_of_atOnce (agreement : Agreement l) (ord : Orderly l) {s : CoordinatorSettings}
    (strict : s.policy = .strict) (r : Request)
    (asked : did (.answered r (r.atOnce s now l).1)) :
    Changes did now l (r.atOnce s now l).2 := by
  cases r with
  | reserve id holder duration price =>
    have kind : (Request.reserve id holder duration price).ForHold id := rfl
    exact changes_reserveAtOnce agreement now id duration price kind rfl fun h e => by
      rw [← e]; exact asked
  | reserveDefault id holder price =>
    have kind : (Request.reserveDefault id holder price).ForHold id := rfl
    exact changes_reserveAtOnce agreement now id _ price kind rfl fun h e => by
      rw [← e]; exact asked
  | confirm id holder =>
    simp only [Request.atOnce, strict] at asked ⊢
    exact changes_confirm agreement now id holder fun e => by rw [← e]; exact asked
  | cancel id holder =>
    simp only [Request.atOnce, strict] at asked ⊢
    exact changes_cancel agreement now id holder fun e => by rw [← e]; exact asked
  | book group holder ids price =>
    have kind : (Request.book group holder ids price).ForBooking group := rfl
    exact changes_bookAtOnce agreement now group ids price kind rfl fun b e => by
      rw [← e]; exact asked
  | bookByName group holder names price =>
    simp only [Request.atOnce] at asked ⊢
    obtain missing | ⟨ids, found⟩ := l.bookByNameAtOnce_cases now group holder names price
    · rw [missing]
      exact .refl l
    · rw [found] at asked ⊢
      have kind : (Request.bookByName group holder names price).ForBooking group := rfl
      exact changes_bookAtOnce agreement now group ids price kind rfl fun b e => by
        rw [← e]; exact asked
  | cancelGroup booking holder =>
    simp only [Request.atOnce, strict] at asked ⊢
    obtain ⟨e, -, refused⟩ | ⟨b, stands, own, done⟩ :=
      l.cancelGroupAtOnce_cases .strict booking holder
    · rw [refused]
      exact .refl l
    · rw [done] at asked ⊢
      obtain rfl := own rfl
      exact changes_cancelBooking agreement ord stands asked

/-- What somebody has, nobody else takes from them. -/
theorem Change.untouched {r r' : Resource} {c : Claim} (h : Change did now id r r')
    (hc : r.claim = some c) (live : r.lapsed now = false)
    (others : ∀ request a, did (.answered request a) → request.holder ≠ c.holder) :
    r'.claim = some c := by
  have nobody : ¬(r.claim = none ∨ r.lapsed now = true) := by
    simp [hc, live]
  cases h with
  | kept same => exact same.trans hc
  | lapsed gone => exact absurd (.inr gone) nobody
  | held request h asked kind own here free old => exact absurd old nobody
  | booked request b price asked kind own here free old => exact absurd old nobody
  | confirmed c' asked old =>
    cases hc.symm.trans old
    exact absurd rfl (others _ _ asked)
  | cancelled c' asked old =>
    cases hc.symm.trans old
    exact absurd rfl (others _ _ asked)
  | givenUp c' booking asked old =>
    cases hc.symm.trans old
    exact absurd rfl (others _ _ asked)

end Ledger

namespace Traffic

variable {s : CoordinatorSettings} {origin : Int} {l₀ : Ledger} {t u : Traffic Ledger Reply}

/-- A reply comes back in the move from `t` to `u`. -/
def Replies (t u : Traffic Ledger Reply) (a : Reply) : Prop :=
  ∃ owner time, u.returned = ⟨owner, a, time⟩ :: t.returned

/-- A move of parties among which claims and records agree changes claims in no other
way. -/
theorem Move.changes (strict : s.policy = .strict) (move : Move (Party s) t u)
    (kept : t.Kept Ledger.conduct Ledger.Upkeep fun m l l' a => a.Does s m l l')
    (agreement : t.shared.Agreement) (steady : u.clock.Steady) :
    Ledger.Changes (Replies t u) u.clock.stamp t.shared u.shared := by
  cases (move.effect Party.keepsTo kept).2 with
  | still _ same _ => rw [same]; exact .refl _
  | waits clock did _ => exact clock ▸ did.changes (clock ▸ steady)
  | answers owner a clock did returned =>
    have replied : Replies t u a := ⟨owner, _, returned⟩
    rw [clock] at steady ⊢
    rcases did with tells | upkeep
    · cases a with
      | answered r a =>
        rcases tells with ⟨-, quiet⟩ | ⟨answered, quiet⟩
        · exact (Ledger.Changes.refl _).congr quiet.resources
        · obtain rfl : (r.atOnce s t.clock.stamp t.shared).1 = a := answered
          have changes := Ledger.change_of_atOnce agreement kept.inv strict r replied
          exact changes.congr quiet.resources
      | looked =>
        exact (Ledger.Changes.refl _).congr (Ledger.Quiet.resources tells)
      | swept _ => exact tells.elim
      | expired _ => exact tells.elim
      | round _ => exact tells.elim
    · exact upkeep.changes steady

/-- **Claims are their holders'.** Under the strict policy, as long as the wall clock does
not go backwards, no move of any history changes a claim in any other way; and a claim that
has not lapsed stays as it is if its holder is not answered in this very move. -/
theorem claims_change_only (strict : s.policy = .strict) (start : l₀.Untouched)
    (h : Moves (Party s) (Traffic.start origin l₀) t) (move : Move (Party s) t u)
    (steady : u.clock.Steady) :
    Ledger.Changes (Replies t u) u.clock.stamp t.shared u.shared ∧
      ∀ id r c, t.shared.resources.get? id = some r → r.claim = some c →
        r.lapsed u.clock.stamp = false →
        (∀ request a, Replies t u (.answered request a) → request.holder ≠ c.holder) →
          ∃ r', u.shared.resources.get? id = some r' ∧ r'.claim = some c := by
  have ⟨kept, agreement⟩ := h.agreement start
  have changes := move.changes strict kept agreement steady
  refine ⟨changes, fun id r c hr hc live others => ?_⟩
  obtain ⟨r', hr', change⟩ := changes.known id r hr
  exact ⟨r', hr', change.untouched hc live others⟩

/-- Bob has a hold and is about to make a booking of it. -/
def bobHolds : Traffic Ledger Reply :=
  (((Traffic.start 0 Ledger.hallOfTwo).enter (Request.bobReserves.errand .standard)).run
    (fun _ => false) none 5).enter (Request.bobConfirms.errand .standard)

/-- So it is when Bob makes a booking of his hold. -/
theorem claims_change_only_by_confirming :
    Ledger.hallOfTwo.Untouched ∧
    ∃ t u, Moves (Party .standard) (Traffic.start 0 Ledger.hallOfTwo) t ∧
      Move (Party .standard) t u ∧ u.clock.Steady ∧
      (t.shared.resources.get? ⟨0, 1⟩).map Resource.status = some .reserved ∧
      (u.shared.resources.get? ⟨0, 1⟩).map Resource.status = some .booked ∧
      Ledger.Changes (Replies t u) u.clock.stamp t.shared u.shared := by
  have start := Ledger.untouched_hallOfTwo
  have moves : Moves (Party .standard) (Traffic.start 0 Ledger.hallOfTwo) bobHolds :=
    (((Moves.none.snoc (.enter (Client.once .standard .bobReserves).party)).trans
      (run_moves ..)).snoc (.enter (Client.once .standard .bobConfirms).party))
  obtain ⟨u, hu⟩ : ∃ u, bobHolds.step = some u :=
    Option.isSome_iff_exists.1 (by decide +kernel)
  have booked : bobHolds.step.map (fun u =>
      ((u.shared.resources.get? ⟨0, 1⟩).map Resource.status, u.clock)) =
      some (some .booked, ⟨0, 0⟩) := by decide +kernel
  rw [hu] at booked
  obtain ⟨status, clock⟩ := Prod.mk.inj (Option.some.inj booked)
  have steady : u.clock.Steady := Moment.steady_of_le (by rw [clock]; decide)
  have move : Move (Party .standard) bobHolds u := stepFrom_move rfl hu
  exact ⟨start, bobHolds, u, moves, move, steady, by decide +kernel, status,
    (claims_change_only rfl start moves move steady).1⟩

end Traffic

end Tenure
