import Tenure.Proofs.Histories

/-!
# What single parties promise

`Traffic.Kept` says what everybody keeps to, so it says as little of each party as the one that
promises least. Some parties promise more, and what they promise they keep whatever the others
do (`Traffic.Tracks`), as long as all together keep to the rules.

A move in which one party goes on is a stretch of it (`Traffic.Stretch`). What comes of the
stretches of a party is what that party has promised (`Traffic.Moves.comes`).
-/

namespace Tenure

variable {σ α : Type}

/-! ## Stretches -/

/-- In the move from `t` to the next state one party goes on, namely from `go`. -/
inductive Traffic.Stretch (t : Traffic σ α) (owner : Owner) (go : Call σ α × σ × Locks) :
    Traffic σ α → Prop where
  /-- a flight of that party need not wait any longer -/
  | of {earlier later : List (Flight σ α)} {f : Flight σ α}
    (split : t.flights = earlier ++ f :: later) (own : f.owner = owner)
    (isOver : f.wait.Over owner t.clock t.shared t.locks go) :
    t.Stretch owner go (t.resume f (earlier ++ later) go)

/-- What a stretch of a party comes to. -/
inductive Traffic.Comes (wait : Moment → σ → σ → Prop) (ret : Moment → σ → σ → α → Prop)
    (owner : Owner) (t u : Traffic σ α) : Prop where
  /-- the party has to wait again -/
  | waits (did : wait t.clock t.shared u.shared) (returned : u.returned = t.returned)
  /-- it gets its answer -/
  | answers (a : α) (did : ret t.clock t.shared u.shared a)
    (returned : u.returned = ⟨owner, a, t.clock.elapsed⟩ :: t.returned)

variable {C : Conduct σ} {wait wait' : Moment → σ → σ → Prop} {ret ret' : Moment → σ → σ → α → Prop}
  {who : Owner → Prop} {owner : Owner} {m : Moment} {s : σ} {ls : Locks} {t u v : Traffic σ α}
  {go : Call σ α × σ × Locks}

namespace Traffic

/-- Stretches are moves. -/
theorem Stretch.move {Entry : Call σ α → (α → Option (Call σ α)) → Prop}
    (h : t.Stretch owner go u) : Move Entry t u := by
  obtain ⟨split, rfl, isOver⟩ := h
  exact .goOn split isOver

theorem Stretch.clock (h : t.Stretch owner go u) : u.clock = t.clock := by
  obtain ⟨-, -, -⟩ := h
  exact clock_resume ..

theorem Stretch.shared (h : t.Stretch owner go u) :
    u.shared = (go.1.run owner t.clock go.2.1 go.2.2).2.1 := by
  obtain ⟨-, rfl, -⟩ := h
  exact shared_resume ..

theorem Stretch.locks (h : t.Stretch owner go u) :
    u.locks = (go.1.run owner t.clock go.2.1 go.2.2).2.2 := by
  obtain ⟨-, rfl, -⟩ := h
  exact locks_resume ..

theorem Stretch.nextOwner (h : t.Stretch owner go u) : u.nextOwner = t.nextOwner := by
  obtain ⟨-, -, -⟩ := h
  exact nextOwner_resume ..

theorem Stretch.returned (h : t.Stretch owner go u) : u.returned =
    match (go.1.run owner t.clock go.2.1 go.2.2).1 with
    | .returned a => ⟨owner, a, t.clock.elapsed⟩ :: t.returned
    | .waiting _ => t.returned := by
  obtain ⟨-, rfl, -⟩ := h
  exact returned_resume ..

/-- If a call is found that need not wait, letting it go on is a stretch of its party. -/
theorem stepFrom_stretch {earlier later : List (Flight σ α)} (split : t.flights = earlier ++ later)
    (h : t.stepFrom earlier later = some u) : ∃ f ∈ later, ∃ go, t.Stretch f.owner go u := by
  induction later generalizing earlier with
  | nil => cases h
  | cons f later ih =>
    rw [stepFrom] at h
    split at h
    · next go ended =>
      cases h
      exact ⟨f, List.mem_cons_self, go, .of split rfl (Wait.over_of_ended ended)⟩
    · obtain ⟨g, hg, go, stretch⟩ := ih (by rw [split, List.append_assoc]; rfl) h
      exact ⟨g, List.mem_cons_of_mem _ hg, go, stretch⟩

/-- The party that goes on is in flight. -/
theorem Stretch.flight (h : t.Stretch owner go u) :
    ∃ f ∈ t.flights, f.owner = owner ∧
      f.wait.Over owner t.clock t.shared t.locks go := by
  obtain ⟨split, own, isOver⟩ := h
  exact ⟨_, (perm_of_split split).mem_iff.2 List.mem_cons_self, own, isOver⟩

/-- **Whoever does not go on** stays in flight as it is. -/
theorem Stretch.others (h : t.Stretch owner go u) {f : Flight σ α} (ne : f.owner ≠ owner) :
    f ∈ u.flights ↔ f ∈ t.flights := by
  obtain @⟨earlier, later, g, split, rfl, -⟩ := h
  rw [mem_resume, (perm_of_split split).mem_iff, List.mem_cons]
  exact (or_iff_right fun own => ne (Flight.owner_of_after own)).trans
    (or_iff_right fun same => ne (congrArg Flight.owner same)).symm

/-- **Whoever goes on** is in flight after that as the end of its stretch says. -/
theorem Stretch.own (h : t.Stretch owner go u) (owners : (t.flights.map Flight.owner).Nodup) :
    ∃ f ∈ t.flights, f.owner = owner ∧ f.wait.Over owner t.clock t.shared t.locks go ∧
      ∀ g, g.owner = owner →
        (g ∈ u.flights ↔ g ∈ f.after (go.1.run owner t.clock go.2.1 go.2.2).1) := by
  obtain @⟨earlier, later, f, split, rfl, isOver⟩ := h
  have perm := perm_of_split split
  refine ⟨f, perm.mem_iff.2 List.mem_cons_self, rfl, isOver, fun g same => ?_⟩
  exact mem_resume.trans (or_iff_left fun hg => owner_ne_of_perm perm owners hg same)

/-- Some parties keep to the rules and promise `wait` and `ret`. -/
def Tracks (C : Conduct σ) (wait : Moment → σ → σ → Prop) (ret : Moment → σ → σ → α → Prop)
    (who : Owner → Prop) (t : Traffic σ α) : Prop :=
  ∀ f ∈ t.flights, who f.owner → f.Kept C wait ret t.clock t.shared t.locks

/-- **A stretch of anybody** leaves those who promise more as they are, and if it is one of them
that goes on, comes to what was promised. -/
theorem Tracks.stretch (h : t.Tracks C wait' ret' who) (kept : t.Kept C wait ret)
    (stretch : t.Stretch owner go u) :
    u.Tracks C wait' ret' who ∧ (who owner → Comes wait' ret' owner t u) := by
  obtain @⟨earlier, later, f, split, rfl, isOver⟩ := stretch
  have perm := perm_of_split split
  have mem : f ∈ t.flights := perm.mem_iff.2 List.mem_cons_self
  have others := ((kept.flights f mem).leaves kept.inv kept.proper isOver).others
  have own := fun hw : who f.owner => (h f mem hw).leaves kept.inv kept.proper isOver
  constructor
  · intro g hg hw
    rw [clock_resume, shared_resume, locks_resume]
    rcases mem_resume.1 hg with after | other
    · have hw : who f.owner := Flight.owner_of_after after ▸ hw
      exact (h f mem hw).after (own hw) after
    · exact (h g (perm.mem_iff.2 (List.mem_cons_of_mem _ other)) hw).later
        (owner_ne_of_perm perm kept.owners other) others
  · intro hw
    have ends := (own hw).ends
    have returned := returned_resume t f (earlier ++ later) go
    have shared := shared_resume t f (earlier ++ later) go
    cases ran : (go.1.run f.owner t.clock go.2.1 go.2.2).1 with
    | waiting w =>
      simp only [ran] at ends returned
      exact .waits (shared ▸ ends.1) returned
    | returned a =>
      simp only [ran] at ends returned
      obtain ⟨-, did⟩ := ends
      exact .answers a (shared ▸ did) returned

variable {Entry : Call σ α → (α → Option (Call σ α)) → Prop}

/-- Time does not go backwards. -/
theorem Move.before (move : Move Entry t u) : t.clock.Before u.clock := by
  cases move with
  | goOn split isOver =>
    rw [Stretch.clock (.of split rfl isOver)]
    exact .refl _
  | elapse later => exact ⟨rfl, later⟩
  | enter entry => exact .refl _

/-- Where everybody keeps to the rules, nothing happens but what a party reckons with that has no
lock. -/
theorem Move.rely (kept : t.Kept C wait ret) (move : Move Entry t u) :
    C.rely [] t.shared u.shared := by
  cases move with
  | @goOn earlier later f go split isOver =>
    have mem : f ∈ t.flights := (perm_of_split split).mem_iff.2 List.mem_cons_self
    have others := ((kept.flights f mem).leaves kept.inv kept.proper isOver).others
    rw [Stretch.shared (.of split rfl isOver)]
    exact (others (f.owner + 1) [] (Nat.succ_ne_self _) Locks.grants_nil).2
  | elapse later => exact C.rely_refl [] _
  | enter entry => exact C.rely_refl [] _

theorem Moves.rely
    (entry : ∀ {call again}, Entry call again → KeepsTo C wait ret call again)
    (kept : t.Kept C wait ret) (h : Moves Entry t u) :
    u.Kept C wait ret ∧ C.rely [] t.shared u.shared := by
  induction h with
  | none => exact ⟨kept, C.rely_refl [] _⟩
  | snoc _ move ih => exact ⟨(move.effect entry ih.1).1, C.rely_trans ih.2 (move.rely ih.1)⟩

/-- Parties are numbered in the order in which they enter. -/
theorem Move.nextOwner_le (move : Move Entry t u) : t.nextOwner ≤ u.nextOwner := by
  cases move with
  | goOn split isOver => exact Nat.le_of_eq (nextOwner_resume ..).symm
  | elapse later => exact Nat.le_refl _
  | enter entry => exact Nat.le_succ _

theorem Moves.nextOwner_le (h : Moves Entry t u) : t.nextOwner ≤ u.nextOwner := by
  induction h with
  | none => exact Nat.le_refl _
  | snoc _ move ih => exact Nat.le_trans ih move.nextOwner_le

/-- **Moves.** Those who promise more keep what they have promised, whoever enters. -/
theorem Tracks.move (h : t.Tracks C wait' ret' who) (kept : t.Kept C wait ret)
    (entry : ∀ {call again}, Entry call again → who t.nextOwner → KeepsTo C wait' ret' call again)
    (move : Move Entry t u) : u.Tracks C wait' ret' who := by
  cases move with
  | goOn split isOver => exact (h.stretch kept (.of split rfl isOver)).1
  | @elapse elapsed later =>
    intro f hf hw
    have time : t.clock.Before { t.clock with elapsed := elapsed } := ⟨rfl, later⟩
    obtain ⟨⟨held, grants, meets⟩, next⟩ := h f hf hw
    exact ⟨⟨held, grants, meets.later time (C.rely_refl held t.shared)⟩, next⟩
  | @enter call again he =>
    intro f hf hw
    rcases List.mem_append.1 hf with hf | hf
    · exact h f hf hw
    · obtain rfl := List.mem_singleton.1 hf
      have keeps := entry he hw
      exact ⟨⟨[], Locks.grants_nil, fun m' s' _ _ hi => keeps.first m' s' hi⟩, keeps.next⟩

/-- Whoever enters is known from then on by what it promised when it entered. -/
theorem Kept.tracks_entered {call : Call σ α} {again : α → Option (Call σ α)}
    (kept : t.Kept C wait ret) (keeps : KeepsTo C wait' ret' call again) :
    (t.enterAgain call again).Tracks C wait' ret' fun o => o = t.nextOwner := by
  intro f hf own
  rcases List.mem_append.1 hf with hf | hf
  · exact absurd own (Nat.ne_of_lt (kept.known f hf))
  · obtain rfl := List.mem_singleton.1 hf
    exact ⟨⟨[], Locks.grants_nil, fun m' s' _ _ hi => keeps.first m' s' hi⟩, keeps.next⟩

/-- **A party keeps what it has promised**, from when it enters on and along every history. -/
theorem Moves.comes {call : Call σ α} {again : α → Option (Call σ α)}
    (entry : ∀ {call again}, Entry call again → KeepsTo C wait ret call again)
    (kept : t.Kept C wait ret) (here : Entry call again) (keeps : KeepsTo C wait' ret' call again)
    (h : Moves Entry (t.enterAgain call again) u) :
    u.Kept C wait ret ∧ u.Tracks C wait' ret' fun o => o = t.nextOwner := by
  induction h with
  | none => exact ⟨((Move.enter here).effect entry kept).1, kept.tracks_entered keeps⟩
  | @snoc u v before move ih =>
    obtain ⟨kept, tracks⟩ := ih
    refine ⟨(move.effect entry kept).1, tracks.move kept (fun _ same => ?_) move⟩
    -- whoever enters now is somebody else
    have new : t.nextOwner + 1 ≤ u.nextOwner := before.nextOwner_le
    exact absurd same (Nat.ne_of_gt new)

end Traffic

end Tenure
