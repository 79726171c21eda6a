import Tenure.Proofs.Gate.Likeness
import Tenure.Traffic.Moves

/-!
# Traffic by a script

A **script** says what happens in traffic, one thing after another: who enters, whose call goes on,
how much time passes. Parties go by their numbers, so a script can be played from any state of
traffic, and two of them can be compared cue by cue.

A script can be played as long as it asks for nothing that cannot happen: nobody enters under a
number that somebody has had, a call goes on only if it need not wait, and time does not go
backwards. Every history is played by some script (`Traffic.Moves.played`).
-/

namespace Tenure

variable {σ τ α γ δ : Type}

/-! ## Scripts -/

/-- A party that is about to enter. -/
structure Entrant (σ α : Type) where
  /-- its first call -/
  call : Call σ α
  /-- what it does next, once it has the answer -/
  again : α → Option (Call σ α)

/-- What is to happen next. -/
inductive Cue (γ : Type) where
  /-- a party enters, under a new number -/
  | enter (owner : Owner) (guest : γ)
  /-- the call of a party goes on; if its time has come and a sign is there as well, it goes on for
  the sign if it is `alert` -/
  | goOn (alert : Bool) (owner : Owner)
  /-- time passes until the stopwatch is there -/
  | elapse (elapsed : Nat)

/-- The same with other guests. -/
def Cue.map (f : γ → δ) : Cue γ → Cue δ
  | enter owner guest => enter owner (f guest)
  | goOn alert owner => goOn alert owner
  | elapse elapsed => elapse elapsed

/-- What a party has in flight after a stretch of its call. -/
def Flight.left (f : Flight σ α) : Stop σ α → Option (Flight σ α)
  | .waiting w => some { f with wait := w }
  | .returned a => (f.again a).map fun c => { f with wait := .turn c }

/-- The answer, if there is one. -/
def Stop.answer? : Stop σ α → Option α
  | .waiting _ => none
  | .returned a => some a

namespace Traffic

/-- What a party has in flight. -/
def flight? (t : Traffic σ α) (owner : Owner) : Option (Flight σ α) :=
  t.flights.find? fun f => f.owner = owner

/-- What all others have in flight. -/
def others (t : Traffic σ α) (owner : Owner) : List (Flight σ α) :=
  t.flights.filter fun f => f.owner ≠ owner

/-- Whether anybody has had a number. -/
def knows (t : Traffic σ α) (owner : Owner) : Bool :=
  (t.flight? owner).isSome || t.returned.any fun r => r.owner = owner

/-- A party enters under a number that nobody has had. -/
def arrive (t : Traffic σ α) (owner : Owner) (e : Entrant σ α) : Option (Traffic σ α) :=
  if t.knows owner then none
  else some { t with
    flights := t.flights ++ [⟨owner, .turn e.call, e.again⟩]
    nextOwner := max t.nextOwner (owner + 1) }

/-- The call of a party goes on, if it need not wait any longer. -/
def goOn (t : Traffic σ α) (alert : Bool) (owner : Owner) : Option (Traffic σ α) :=
  (t.flight? owner).bind fun f =>
    (f.wait.ended alert owner t.clock t.shared t.locks).map fun go => t.resume f (t.others owner) go

/-- Time passes. -/
def pass (t : Traffic σ α) (elapsed : Nat) : Option (Traffic σ α) :=
  if t.clock.elapsed ≤ elapsed then some (t.elapseTo elapsed) else none

/-- What a cue asks for happens, if it can. -/
def cue (t : Traffic σ α) : Cue (Entrant σ α) → Option (Traffic σ α)
  | .enter owner e => t.arrive owner e
  | .goOn alert owner => t.goOn alert owner
  | .elapse elapsed => t.pass elapsed

/-- A script is played, if it can be. -/
def play (t : Traffic σ α) : List (Cue (Entrant σ α)) → Option (Traffic σ α)
  | [] => some t
  | c :: script => (t.cue c).bind fun u => u.play script

theorem play_append (t : Traffic σ α) (script more : List (Cue (Entrant σ α))) :
    t.play (script ++ more) = (t.play script).bind fun u => u.play more := by
  induction script generalizing t with
  | nil => rfl
  | cons c script ih =>
    simp only [List.cons_append, play, ih]
    cases t.cue c <;> rfl

variable {t u : Traffic σ α} {alert : Bool} {owner : Owner} {f : Flight σ α}

/-! ## Parties by their numbers -/

theorem owner_of_flight (h : t.flight? owner = some f) : f.owner = owner := by
  simpa using List.find?_some h

theorem flight_of_not_knows (h : t.knows owner = false) : t.flight? owner = none := by
  rw [knows, Bool.or_eq_false_iff, Option.isSome_eq_false_iff, Option.isNone_iff_eq_none] at h
  exact h.1

theorem ne_of_not_knows (h : t.knows owner = false) : ∀ r ∈ t.returned, r.owner ≠ owner := by
  rw [knows, Bool.or_eq_false_iff, List.any_eq_false] at h
  simpa using h.2

theorem not_knows (gone : t.flight? owner = none) (silent : ∀ r ∈ t.returned, r.owner ≠ owner) :
    t.knows owner = false := by
  rw [knows, gone, Option.isSome_none, Bool.false_or, List.any_eq_false]
  simpa using silent

theorem find_others (t : Traffic σ α) (owner other : Owner) :
    ((t.others owner).find? fun f => f.owner = other) =
      if other = owner then none else t.flight? other := by
  rw [others, List.find?_filter]
  by_cases own : other = owner
  · rw [if_pos own, List.find?_eq_none, own]
    simp
  · rw [if_neg own, flight?]
    congr 1
    funext f
    by_cases here : f.owner = other
    · simp [here, own]
    · simp [here]

theorem find_append_singleton (fs : List (Flight σ α)) (f : Flight σ α) (owner : Owner) :
    ((fs ++ [f]).find? fun f => f.owner = owner) =
      (fs.find? fun f => f.owner = owner).or (if f.owner = owner then some f else none) := by
  rw [List.find?_append, List.find?_singleton]
  simp only [decide_eq_true_eq]

/-- What a stretch of a party's call leaves when it is over. -/
structure Left (t : Traffic σ α) (f : Flight σ α) (r : Stop σ α × σ × Locks) (u : Traffic σ α) :
    Prop where
  /-- the clocks stand still -/
  clock : u.clock = t.clock
  /-- the state that the stretch saved -/
  shared : u.shared = r.2.1
  /-- the locks -/
  locks : u.locks = r.2.2
  /-- one more answer, if there is one -/
  returned : u.returned =
    (r.1.answer?.map fun a => (⟨f.owner, a, t.clock.elapsed⟩ : Return α)).toList ++ t.returned
  /-- what the party has in flight now -/
  own : u.flight? f.owner = f.left r.1
  /-- what the others have in flight is as it was -/
  others : ∀ owner, owner ≠ f.owner → u.flight? owner = t.flight? owner

theorem left_resume (t : Traffic σ α) (f : Flight σ α) (go : Call σ α × σ × Locks) :
    Left t f (go.1.run f.owner t.clock go.2.1 go.2.2) (t.resume f (t.others f.owner) go) := by
  simp only [resume]
  generalize go.1.run f.owner t.clock go.2.1 go.2.2 = r
  obtain ⟨stop, s, ls⟩ := r
  cases stop with
  | waiting w =>
    have found := fun owner => (find_append_singleton (t.others f.owner) { f with wait := w }
      owner).trans (congrArg (Option.or · _) (t.find_others f.owner owner))
    refine ⟨rfl, rfl, rfl, rfl, ?_, fun owner ne => ?_⟩
    · refine (found f.owner).trans ?_
      simp [Flight.left]
    · refine (found owner).trans ?_
      simp [ne, Ne.symm ne]
  | returned a =>
    have found : ∀ owner, (((f.again a).toList.map fun c => { f with wait := .turn c }) ++
        t.others f.owner).find? (fun f => f.owner = owner) =
          (((f.again a).toList.map fun c => { f with wait := .turn c }).find? fun f =>
            f.owner = owner).or (if owner = f.owner then none else t.flight? owner) := by
      intro owner
      rw [List.find?_append, find_others]
    refine ⟨rfl, rfl, rfl, rfl, ?_, fun owner ne => ?_⟩
    · refine (found f.owner).trans ?_
      cases next : f.again a <;> simp [Flight.left, next]
    · refine (found owner).trans ?_
      cases f.again a <;> simp [ne, Ne.symm ne]

/-- How a call goes on: its wait is over, and a stretch of it is run. -/
theorem goOn_eq_some (h : t.goOn alert owner = some u) :
    ∃ f go, t.flight? owner = some f ∧ f.wait.ended alert owner t.clock t.shared t.locks = some go ∧
      u = t.resume f (t.others owner) go := by
  obtain ⟨f, there, gone⟩ := Option.bind_eq_some_iff.1 h
  obtain ⟨go, ended, rfl⟩ := Option.map_eq_some_iff.1 gone
  exact ⟨f, go, there, ended, rfl⟩

theorem goOn_of_ended {go : Call σ α × σ × Locks} (there : t.flight? owner = some f)
    (ended : f.wait.ended alert owner t.clock t.shared t.locks = some go) :
    t.goOn alert owner = some (t.resume f (t.others owner) go) := by
  rw [goOn, there, Option.bind_some, ended, Option.map_some]

theorem pass_eq_some {elapsed : Nat} (h : t.pass elapsed = some u) :
    t.clock.elapsed ≤ elapsed ∧ u = t.elapseTo elapsed := by
  rw [pass] at h
  split at h
  · next later => exact ⟨later, (Option.some.inj h).symm⟩
  · cases h

/-- A party has entered, and nothing else has happened. -/
structure Arrived (t : Traffic σ α) (owner : Owner) (e : Entrant σ α) (u : Traffic σ α) : Prop where
  /-- nobody had its number -/
  new : t.knows owner = false
  /-- the clocks stand still -/
  clock : u.clock = t.clock
  /-- the state is as it was -/
  shared : u.shared = t.shared
  /-- so are the locks -/
  locks : u.locks = t.locks
  /-- and the answers -/
  returned : u.returned = t.returned
  /-- its call waits for its turn -/
  own : u.flight? owner = some ⟨owner, .turn e.call, e.again⟩
  /-- what the others have in flight is as it was -/
  others : ∀ other, other ≠ owner → u.flight? other = t.flight? other

theorem arrived_of_arrive {e : Entrant σ α} (h : t.arrive owner e = some u) :
    Arrived t owner e u := by
  rw [arrive] at h
  split at h
  · cases h
  · next new =>
    have new := eq_false_of_ne_true new
    cases h
    have found := fun other => find_append_singleton t.flights ⟨owner, .turn e.call, e.again⟩ other
    refine ⟨new, rfl, rfl, rfl, rfl, ?_, fun other ne => ?_⟩
    · refine (found owner).trans ?_
      change (t.flight? owner).or _ = _
      rw [flight_of_not_knows new, if_pos rfl, Option.none_or]
    · refine (found other).trans ?_
      rw [if_neg (Ne.symm ne), Option.or_none]
      rfl

theorem arrive_of_new (new : t.knows owner = false) (e : Entrant σ α) :
    ∃ u, t.arrive owner e = some u := ⟨_, if_neg (by simp [new])⟩

/-! ## Calls on a part of the state -/

end Traffic

variable {R : σ → σ → Prop} {part : τ → σ} {put : σ → τ → τ}

/-- A call in flight on a part of a larger state, and one that is like it but for the rest. -/
def Flight.Shows (R : σ → σ → Prop) (part : τ → σ) (put : σ → τ → τ) (f : Flight τ α)
    (g : Flight σ α) : Prop := ∃ p : Flight σ α, f = p.within part put ∧ p.Like R g

theorem Flight.Like.left {f g : Flight σ α} (h : f.Like R g) {r r' : Stop σ α}
    (same : r.Like R r') : Option.Rel (Flight.Like R) (f.left r) (g.left r') := by
  obtain ⟨owner, -, again⟩ := h
  cases same with
  | waiting like => exact .some ⟨owner, like, again⟩
  | returned a =>
    have next := again a
    rw [Flight.left, Flight.left]
    generalize f.again a = c, g.again a = d at next
    cases next with
    | some like => exact .some ⟨owner, .turn like, again⟩
    | none => exact .none

theorem Flight.left_within (f : Flight σ α) (r : Stop σ α) :
    (f.within part put).left (r.within part put) =
      (f.left r).map fun g => g.within part put := by
  cases r with
  | waiting w => rfl
  | returned a =>
    simp only [left, Stop.within, within, Option.map_map]
    rfl

theorem Stop.answer_within (r : Stop σ α) : (r.within part put).answer? = r.answer? := by
  cases r <;> rfl

theorem Stop.Like.answer {r r' : Stop σ α} (h : r.Like R r') : r'.answer? = r.answer? := by
  cases h <;> rfl

namespace Traffic

/-- A call that goes on in traffic, and what it left behind. -/
structure Went (R : σ → σ → Prop) (part : τ → σ) (put : σ → τ → τ) (owner : Owner)
    (t t' : Traffic τ α) (u u' : Traffic σ α) : Prop where
  /-- the clocks stand still -/
  clock : t'.clock = t.clock ∧ u'.clock = u.clock
  /-- the locks are the same -/
  locks : u'.locks = t'.locks
  /-- the part of the state is -/
  same : R (part t'.shared) u'.shared
  /-- the rest of the state is left alone -/
  rest : ∃ s, t'.shared = put s t.shared
  /-- the party has the same answer, if it has one -/
  returned : ∃ answers : List (Return α), (∀ r ∈ answers, r.owner = owner) ∧
    t'.returned = answers ++ t.returned ∧ u'.returned = answers ++ u.returned
  /-- it goes on with the same -/
  own : Option.Rel (Flight.Shows R part put) (t'.flight? owner) (u'.flight? owner)
  /-- what the others have in flight is as it was -/
  others : ∀ other, other ≠ owner →
    t'.flight? other = t.flight? other ∧ u'.flight? other = u.flight? other

section

/-- What two stretches that are alike leave. -/
theorem went_of_left (part_put : ∀ s t, part (put s t) = s) {t t' : Traffic τ α}
    {u u' : Traffic σ α} {p g : Flight σ α} (like : p.Like R g) (clock : u.clock = t.clock)
    {r r' : Stop σ α × σ × Locks} (same : Locks.Likely R (Stop.Like R) r r')
    (theirs : Left t (p.within part put) (r.1.within part put, put r.2.1 t.shared, r.2.2) t')
    (ours : Left u g r' u') : Went R part put p.owner t t' u u' where
  clock := ⟨theirs.clock, ours.clock⟩
  locks := by rw [ours.locks, theirs.locks, same.locks]
  same := by
    rw [ours.shared, theirs.shared, part_put]
    exact same.state
  rest := ⟨_, theirs.shared⟩
  returned := by
    refine ⟨_, fun x hx => ?_, theirs.returned, ?_⟩
    · obtain ⟨a, -, rfl⟩ := Option.map_eq_some_iff.1 (Option.mem_toList.1 hx)
      rfl
    · rw [ours.returned, same.what.answer, Stop.answer_within, like.owner, clock]
      rfl
  own := by
    have shown : t'.flight? p.owner = _ := theirs.own
    rw [shown, Flight.left_within, ← like.owner, ours.own]
    have next := like.left same.what
    generalize p.left r.1 = x, g.left r'.1 = y at next
    cases next with
    | some like => exact .some ⟨_, rfl, like⟩
    | none => exact .none
  others other ne := ⟨theirs.others other ne, ours.others other (like.owner ▸ ne)⟩

variable (part_put : ∀ s t, part (put s t) = s) (put_put : ∀ s s' t, put s (put s' t) = put s t)
  (put_part : ∀ t, put (part t) t = t) {t t' : Traffic τ α} {u : Traffic σ α} {owner : Owner}

include part_put put_put put_part

/-- **Calls that are alike** come to the same in a stretch. -/
theorem went_of_resume {p g : Flight σ α} (like : p.Like R g) (clock : u.clock = t.clock)
    {go go' : Call σ α × σ × Locks} (same : Locks.Likely R (Call.Like R) go go') :
    Went R part put p.owner t
      (t.resume (p.within part put) (t.others p.owner)
        (go.1.within part put, put go.2.1 t.shared, go.2.2))
      u (u.resume g (u.others p.owner) go') := by
  have theirs := left_resume t (p.within part put)
    (go.1.within part put, put go.2.1 t.shared, go.2.2)
  have within := Call.run_within part_put put_put put_part go.1 p.owner t.clock
    (put go.2.1 t.shared) go.2.2
  simp only [part_put, put_put] at within
  simp only [Flight.within, within] at theirs
  have ours := left_resume u g go'
  rw [like.owner, clock, same.locks] at ours
  exact went_of_left part_put like clock (same.what.run p.owner t.clock same.state go.2.2) theirs
    ours

/-- **Where one call goes on, so does the other**, and they come to the same. -/
theorem went_of_goOn (clock : u.clock = t.clock) (locks : u.locks = t.locks)
    (same : R (part t.shared) u.shared)
    (pair : Option.Rel (Flight.Shows R part put) (t.flight? owner) (u.flight? owner))
    (h : t.goOn alert owner = some t') :
    ∃ u', u.goOn alert owner = some u' ∧ Went R part put owner t t' u u' := by
  obtain ⟨f, go, there, ended, rfl⟩ := goOn_eq_some h
  rw [there] at pair
  generalize found : u.flight? owner = o at pair
  cases pair with
  | @some _ g shows =>
    obtain ⟨p, rfl, like⟩ := shows
    have named : (p.within part put).owner = owner := owner_of_flight there
    obtain rfl : p.owner = owner := named
    rw [Flight.within, Wait.ended_within put_part] at ended
    obtain ⟨go, past, rfl⟩ := Option.map_eq_some_iff.1 ended
    have both := like.wait.ended alert p.owner t.clock same t.locks
    rw [past] at both
    generalize past' : g.wait.ended alert p.owner t.clock u.shared t.locks = o' at both
    cases both with
    | @some _ go' both =>
      have ended' : g.wait.ended alert p.owner u.clock u.shared u.locks = some go' := by
        rw [clock, locks, past']
      exact ⟨_, goOn_of_ended found ended',
        went_of_resume part_put put_put put_part like clock both⟩

end

variable {t u : Traffic σ α} {alert : Bool} {owner : Owner} {f : Flight σ α}

/-! ## Every history is played by a script -/

/-- Parties have numbers of their own, and the next number is a new one. -/
structure Numbered (t : Traffic σ α) : Prop where
  /-- nobody is in flight twice -/
  apart : (t.flights.map Flight.owner).Nodup
  /-- whoever is in flight entered earlier -/
  flights : ∀ f ∈ t.flights, f.owner < t.nextOwner
  /-- so did whoever has an answer -/
  returned : ∀ r ∈ t.returned, r.owner < t.nextOwner

theorem Numbered.not_knows (h : t.Numbered) : t.knows t.nextOwner = false := by
  refine Traffic.not_knows ?_ fun r hr => Nat.ne_of_lt (h.returned r hr)
  exact List.find?_eq_none.2 fun f hf => by simpa using Nat.ne_of_lt (h.flights f hf)

theorem Numbered.split {earlier later : List (Flight σ α)} (h : t.Numbered)
    (split : t.flights = earlier ++ f :: later) :
    t.flight? f.owner = some f ∧ t.others f.owner = earlier ++ later := by
  have apart := h.apart
  rw [split, List.map_append, List.map_cons, List.nodup_append, List.nodup_cons] at apart
  obtain ⟨-, ⟨after, -⟩, before⟩ := apart
  have early : ∀ g ∈ earlier, g.owner ≠ f.owner := fun g hg =>
    before _ (List.mem_map_of_mem hg) _ List.mem_cons_self
  have late : ∀ g ∈ later, g.owner ≠ f.owner := fun g hg same =>
    after (same ▸ List.mem_map_of_mem hg)
  constructor
  · rw [flight?, split, List.find?_append, List.find?_eq_none.2 (by simpa using early),
      List.find?_cons_of_pos (by simp), Option.none_or]
  · rw [others, split, List.filter_append, List.filter_cons_of_neg (by simp),
      List.filter_eq_self.2 (by simpa using early), List.filter_eq_self.2 (by simpa using late)]

variable {Entry : Call σ α → (α → Option (Call σ α)) → Prop}

theorem Move.numbered (move : Move Entry t u) (h : t.Numbered) : u.Numbered := by
  cases move with
  | @goOn earlier later f go split isOver =>
    have perm := perm_of_split split
    have own := h.flights f (perm.mem_iff.2 List.mem_cons_self)
    refine ⟨nodup_resume perm h.apart, owner_lt_resume perm h.flights, ?_⟩
    rw [nextOwner_resume, returned_resume]
    cases (go.1.run f.owner t.clock go.2.1 go.2.2).1 with
    | waiting w => exact h.returned
    | returned a => exact List.forall_mem_cons.2 ⟨own, h.returned⟩
  | elapse later => exact ⟨h.apart, h.flights, h.returned⟩
  | @enter call again entry =>
    exact ⟨nodup_enterAgain call again h.flights h.apart, owner_lt_enterAgain call again h.flights,
      fun r hr => Nat.lt_succ_of_lt (h.returned r hr)⟩

/-- One move is one cue. -/
theorem Move.cued {cast : γ → Entrant σ α}
    (move : Move (fun call again => ∃ g, cast g = ⟨call, again⟩) t u) (h : t.Numbered) :
    ∃ c : Cue γ, t.cue (c.map cast) = some u := by
  cases move with
  | @goOn earlier later f go split isOver =>
    obtain ⟨there, others⟩ := h.split split
    obtain ⟨alert, ended⟩ := isOver.exists_ended
    refine ⟨.goOn alert f.owner, (goOn_of_ended there ended).trans ?_⟩
    rw [others]
  | elapse later => exact ⟨.elapse _, if_pos later⟩
  | @enter call again entry =>
    obtain ⟨g, same⟩ := entry
    refine ⟨.enter t.nextOwner g, ?_⟩
    rw [Cue.map, same, cue, arrive, h.not_knows, if_neg Bool.false_ne_true,
      Nat.max_eq_right (Nat.le_succ _)]
    rfl

/-- **Every history is played by a script.** -/
theorem Moves.played {cast : γ → Entrant σ α} {origin : Int} {s : σ}
    (h : Moves (fun call again => ∃ g, cast g = ⟨call, again⟩) (start origin s) t) :
    ∃ script : List (Cue γ), (start origin s).play (script.map (Cue.map cast)) = some t := by
  have numbered : (start origin s : Traffic σ α).Numbered :=
    ⟨List.nodup_nil, fun _ hf => absurd hf List.not_mem_nil,
      fun _ hr => absurd hr List.not_mem_nil⟩
  induction h with
  | none => exact ⟨[], rfl⟩
  | @snoc u v before move ih =>
    obtain ⟨script, played⟩ := ih
    obtain ⟨c, cued⟩ := move.cued (before.invariant Move.numbered numbered)
    refine ⟨script ++ [c], ?_⟩
    rw [List.map_append, play_append, played, Option.bind_some, List.map_singleton, play, cued]
    rfl

end Traffic

end Tenure
