import Tenure.Proofs.Expiries

/-!
# How holds end

A hold lasts until somebody confirms it or gives it up, or until it lapses. What single acts do
to it depends on the time and is told of (`Ledger.Act`): nobody confirms or gives up a hold whose
deadline has come, and nobody frees a resource from one whose deadline has not. So whatever
requests, sweeps and the reaper do at one moment, a hold is still there afterwards, was closed
before its deadline, or has lapsed after it (`Ledger.Fate`).
-/

namespace Tenure

/-- The event tells that somebody took a resource. -/
def Event.takes (id : Id) : Event → Bool
  | holdPlaced id' .. => id' = id
  | groupBooked _ _ _ resources _ => id ∈ resources
  | _ => false

/-- The event tells that somebody confirmed a hold on a resource, or gave it up. -/
def Event.closes (id : Id) : Event → Bool
  | bookingConfirmed id' .. => id' = id
  | reservationCancelled id' _ => id' = id
  | _ => false

namespace Ledger

variable {l l' l'' : Ledger} {m : Moment} {id : Id} {c : Claim} {deadline : Int}
  {told : List (Id × Event)} {s : CoordinatorSettings}

/-- A resource is held under a claim. -/
def HeldUnder (l : Ledger) (id : Id) (c : Claim) : Prop :=
  ∃ r, l.resources.get? id = some r ∧ r.status = .reserved ∧ r.claim = some c

/-- Nobody has a resource. -/
def Vacant (l : Ledger) (id : Id) : Prop :=
  ∃ r, l.resources.get? id = some r ∧ r.status = .available

/-- The hold under a claim lapsed on the way from `l` to `l'`. That is told of, and nobody has
the resource afterwards, or somebody took it after that and was told so. -/
def Lapses (id : Id) (c : Claim) (l l' : Ledger) : Prop :=
  ∃ later earlier,
    l'.hub.history =
      later ++ (id, .holdExpired id c.holder c.generation) :: (earlier ++ l.hub.history) ∧
    (l'.Vacant id ∨ ∃ x ∈ later, x.2.takes id = true)

/-- The hold was confirmed or given up on the way from `l` to `l'`. -/
def Closes (id : Id) (l l' : Ledger) : Prop :=
  ∃ told, l'.hub.history = told ++ l.hub.history ∧ ∃ x ∈ told, x.2.closes id = true

/-! ## Single acts -/

/-- What an act at the moment `m` does to holds, and which events it tells. -/
structure Act (m : Moment) (told : List (Id × Event)) (l l' : Ledger) : Prop where
  /-- these are the events -/
  history : l'.hub.history = told ++ l.hub.history
  /-- a hold lasts, or lapses once its deadline has come, or is closed before that -/
  held : ∀ id c deadline, l.HeldUnder id c → c.deadline = some deadline →
    l'.HeldUnder id c ∨
    (deadline ≤ m.stamp ∧ told = [(id, .holdExpired id c.holder c.generation)] ∧ l'.Vacant id) ∨
    (m.stamp < deadline ∧ ∃ x ∈ told, x.2.closes id = true)
  /-- a resource that nobody has is taken only if that is told of -/
  vacant : ∀ id, l.Vacant id → l'.Vacant id ∨ ∃ x ∈ told, x.2.takes id = true

/-- To leave the resources alone, and tell nobody. -/
theorem Act.of_eq (resources : l'.resources = l.resources) (hub : l'.hub = l.hub) :
    Act m [] l l' := by
  refine ⟨by rw [hub]; rfl, fun id c deadline h _ => .inl ?_, fun id h => .inl ?_⟩
  · rwa [HeldUnder, resources]
  · rwa [Vacant, resources]

/-- To turn one resource, and tell of it. -/
theorem Act.of_turn {key : Id} {e : Event} {f : Resource → Resource} {r : Resource}
    (hub : l'.hub = l.hub.send key e) (resources : l'.resources = l.resources.modify id f)
    (here : l.resources.get? id = some r)
    (held : ∀ c deadline, r.status = .reserved → r.claim = some c → c.deadline = some deadline →
      (deadline ≤ m.stamp ∧ (key, e) = (id, .holdExpired id c.holder c.generation) ∧
        (f r).status = .available) ∨ (m.stamp < deadline ∧ e.closes id = true))
    (vacant : r.status = .available → e.takes id = true) : Act m [(key, e)] l l' := by
  have found : ∀ id', l'.resources.get? id' =
      if id' = id then some (f r) else l.resources.get? id' := by
    intro id'
    rw [resources, Table.get?_modify, here]
    rfl
  refine ⟨by rw [hub]; rfl, ?_, ?_⟩
  · rintro id' c deadline ⟨r', hr', reserved, hc⟩ hd
    by_cases same : id' = id
    · subst same
      obtain rfl := Option.some.inj (here.symm.trans hr')
      refine .inr ((held c deadline reserved hc hd).imp ?_ ?_)
      · rintro ⟨come, tells, free⟩
        exact ⟨come, by rw [tells], f r, by rw [found, if_pos rfl], free⟩
      · rintro ⟨early, closes⟩
        exact ⟨early, _, List.mem_singleton_self _, closes⟩
    · exact .inl ⟨r', by rw [found, if_neg same]; exact hr', reserved, hc⟩
  · rintro id' ⟨r', hr', free⟩
    by_cases same : id' = id
    · subst same
      obtain rfl := Option.some.inj (here.symm.trans hr')
      exact .inr ⟨_, List.mem_singleton_self _, vacant free⟩
    · exact .inl ⟨r', by rw [found, if_neg same]; exact hr', free⟩

/-- To settle a hold that has lapsed. -/
theorem act_lapse {now : Int} {r : Resource} {c : Claim} (come : now ≤ m.stamp)
    (here : l.resources.get? id = some r) (gone : r.lapsed now = true) (claim : r.claim = some c)
    (hub : l'.hub = l.hub.send id (.holdExpired id c.holder c.generation))
    (resources : l'.resources = l.resources.modify id Resource.freed) :
    Act m [(id, .holdExpired id c.holder c.generation)] l l' := by
  obtain ⟨reserved, c', deadline', hc', hd', past⟩ := Resource.lapsed_iff.1 gone
  refine .of_turn hub resources here ?_ fun free => nomatch free.symm.trans reserved
  intro c'' deadline _ hc'' hd''
  obtain rfl := Option.some.inj (claim.symm.trans hc'')
  obtain rfl := Option.some.inj (claim.symm.trans hc')
  obtain rfl := Option.some.inj (hd'.symm.trans hd'')
  exact .inl ⟨Int.le_trans past come, rfl, rfl⟩

/-- A hold that has not lapsed has its deadline ahead. -/
theorem lt_of_not_lapsed {r : Resource} {now : Int} (live : r.lapsed now = false)
    (reserved : r.status = .reserved) (hc : r.claim = some c) (hd : c.deadline = some deadline) :
    now < deadline := by
  refine Int.not_le.1 fun come => ?_
  rw [(Resource.heldUntil_of_claim reserved hc hd).lapsed_iff.2 come] at live
  cases live

/-- **Requests and sweeps.** -/
theorem Step.act (h : Step m l l') (steady : m.Steady) (agreement : Agreement l) :
    ∃ told, Act m told l l' := by
  cases h with
  | count quiet =>
    obtain ⟨x, rfl⟩ := quiet
    exact ⟨[], .of_eq rfl rfl⟩
  | @lapse _ r c m' time here gone claim =>
    exact ⟨_, act_lapse (steady _ _ time (.refl _)) here gone claim rfl rfl⟩
  | hold holder millis price here free =>
    refine ⟨_, .of_turn (f := fun r' => Ledger.held r' (holdOn _ m.stamp _ holder millis price)) rfl
      rfl here (fun c deadline reserved => ?_) fun _ => by simp [Event.takes]⟩
    exact nomatch free.symm.trans reserved
  | confirm here live reserved claim =>
    refine ⟨_, .of_turn rfl rfl here (fun c deadline _ hc hd => .inr ?_) fun free => ?_⟩
    · exact ⟨lt_of_not_lapsed live reserved hc hd, by simp [Event.closes]⟩
    · exact nomatch free.symm.trans reserved
  | cancel here live taken single =>
    refine ⟨_, .of_turn rfl rfl here (fun c deadline reserved hc hd => .inr ?_) fun free => ?_⟩
    · exact ⟨lt_of_not_lapsed live reserved hc hd, by simp [Event.closes]⟩
    · exact absurd free taken
  | @book _ b price books =>
    refine ⟨[(b.group, .groupBooked b.id b.group b.holder b.resources b.total)],
      congrArg Hub.history books.hub, ?_, ?_⟩
    · rintro id c deadline ⟨r, hr, reserved, hc⟩ -
      refine .inl ⟨r, ?_, reserved, hc⟩
      rw [books.found]
      split
      · next listed =>
        obtain ⟨r', hr', free, -⟩ := books.free id listed
        obtain rfl := Option.some.inj (hr.symm.trans hr')
        exact nomatch free.symm.trans reserved
      · exact hr
    · rintro id ⟨r, hr, free⟩
      by_cases listed : id ∈ b.resources
      · exact .inr ⟨_, List.mem_singleton_self _, by simpa [Event.takes] using listed⟩
      · exact .inl ⟨r, by rw [books.found, if_neg listed]; exact hr, free⟩
  | @giveUp booking b stands =>
    have found : ∀ id r, l.resources.get? id = some r → r.claim.bind Claim.booking = none →
        (l.cancelBooking b).resources.get? id = some r := by
      -- it is no part of a group booking
      intro id r hr single
      rw [get?_cancelBooking, hr, Option.map_some]
      split
      · simp [Resource.givenUp, single]
      · rfl
    refine ⟨[(b.group, .groupCancelled b.id b.group b.resources)],
      congrArg Hub.history (l.hub_cancelBooking b), ?_, ?_⟩
    · rintro id c deadline ⟨r, hr, reserved, hc⟩ -
      have agrees := agreement.resources id r hr
      exact .inl ⟨r, found id r hr (agrees.single_of_reserved reserved), reserved, hc⟩
    · rintro id ⟨r, hr, free⟩
      have agrees := agreement.resources id r hr
      exact .inl ⟨r, found id r hr (agrees.single_of_available free), free⟩

/-- **The reaper.** -/
theorem Reap.act (h : Reap s m l l') : ∃ told, Act m told l l' := by
  cases h with
  | count quiet =>
    obtain ⟨x, rfl⟩ := quiet
    exact ⟨[], .of_eq rfl rfl⟩
  | notice => exact ⟨[], .of_eq rfl rfl⟩
  | take => exact ⟨[], .of_eq rfl rfl⟩
  | unknown => exact ⟨[], .of_eq rfl rfl⟩
  | @expire e es =>
    have none : ∀ {b}, l.expire m.stamp e.id e.generation = (b, l) →
        ∃ told, Act m told l { (l.expire m.stamp e.id e.generation).2 with inHand := es } :=
      fun same => ⟨[], .of_eq (by rw [same]) (by rw [same])⟩
    rcases l.expire_cases m.stamp e.id e.generation with same | settled
    · exact none same
    · rcases l.settle_cases m.stamp e.id with ⟨r, c, here, gone, claim, done⟩ | ⟨-, same⟩
      · refine ⟨_, act_lapse (Int.le_refl _) here gone claim ?_ ?_⟩ <;> rw [settled, done] <;> rfl
      · exact none (settled.trans same)
  | retry => exact ⟨[], .of_eq rfl rfl⟩

/-! ## Rows of acts -/

/-- What becomes of a hold until the moment `m`. -/
inductive Fate (m : Moment) (id : Id) (c : Claim) (deadline : Int) (l l' : Ledger) : Prop where
  /-- it lasts -/
  | lasts (held : l'.HeldUnder id c) (told : ∃ told, l'.hub.history = told ++ l.hub.history)
  /-- its deadline has come, and it has lapsed -/
  | lapses (come : deadline ≤ m.stamp) (lapses : Lapses id c l l')
  /-- it was closed before its deadline -/
  | closes (early : m.stamp < deadline) (closes : Closes id l l')

/-- **One more act.** -/
theorem Fate.act (h : Fate m id c deadline l l') (hd : c.deadline = some deadline)
    (act : Act m told l' l'') : Fate m id c deadline l l'' := by
  have history := act.history
  cases h with
  | lasts held before =>
    obtain ⟨before, e⟩ := before
    rw [e] at history
    rcases act.held id c deadline held hd with held | ⟨come, tells, free⟩ | ⟨early, x, hx, closes⟩
    · exact .lasts held ⟨told ++ before, by rw [history, List.append_assoc]⟩
    · rw [tells] at history
      exact .lapses come ⟨[], before, history, .inl free⟩
    · refine .closes early ⟨told ++ before, by rw [history, List.append_assoc], x, ?_, closes⟩
      exact List.mem_append_left _ hx
  | lapses come lapses =>
    obtain ⟨later, earlier, e, after⟩ := lapses
    rw [e, ← List.append_assoc] at history
    refine .lapses come ⟨told ++ later, earlier, history, ?_⟩
    rcases after with free | ⟨x, hx, takes⟩
    · refine (act.vacant id free).imp_right ?_
      rintro ⟨x, hx, takes⟩
      exact ⟨x, List.mem_append_left _ hx, takes⟩
    · exact .inr ⟨x, List.mem_append_right _ hx, takes⟩
  | closes early closes =>
    obtain ⟨before, e, x, hx, closes⟩ := closes
    rw [e, ← List.append_assoc] at history
    exact .closes early ⟨told ++ before, history, x, List.mem_append_right _ hx, closes⟩

theorem HeldUnder.fate (h : l.HeldUnder id c) : Fate m id c deadline l l := .lasts h ⟨[], rfl⟩

/-- **Requests and sweeps** that somebody goes on with in one stretch. -/
theorem Steps.fate (h : Steps m l l') (steady : m.Steady) (agreement : Agreement l)
    (ord : Orderly l) (held : l.HeldUnder id c) (hd : c.deadline = some deadline) :
    Fate m id c deadline l l' := by
  have along : Fate m id c deadline l l' ∧ Agreement l' ∧ Orderly l' := by
    refine h.keeps (P := fun l' => Fate m id c deadline l l' ∧ Agreement l' ∧ Orderly l') ?_
      ⟨held.fate, agreement, ord⟩
    rintro l₁ l₂ step ⟨fate, agreement, ord⟩
    obtain ⟨told, act⟩ := step.act steady agreement
    exact ⟨fate.act hd act, step.agreement agreement ord, step.orderly ord⟩
  exact along.1

/-- **Whatever the reaper does** in one stretch. -/
theorem Reaps.fate (h : Reaps s m l l') (held : l.HeldUnder id c)
    (hd : c.deadline = some deadline) : Fate m id c deadline l l' :=
  h.keeps (P := Fate m id c deadline l)
    (fun reap fate => have ⟨_, act⟩ := reap.act; fate.act hd act) held.fate

end Ledger

end Tenure
