import Tenure.Traffic.Moves

/-!
# Interrupted calls

What can be said of a call that runs to its end while other things go on whenever it waits. All
that is known of them is a relation between what was before and what is when the call goes on;
whether the call gets the lock it has waited for is left open.

`Call.Bears` is the weakest precondition of an answer under such interruptions, so it goes
through a call part by part (`bears_bind`), and `Call.Bears.ends` says that the call keeps what
it promises, whatever becomes of the locks.
-/

namespace Tenure

variable {σ α β : Type}

namespace Call

/-- A call of `owner` comes to its end, with an answer. Whenever it has to wait, `others` is what
happens until it goes on, and the locks may change in any way. -/
inductive Ends (others : Moment → σ → Moment → σ → Prop) (owner : Owner) :
    Call σ α → Moment → σ → Locks → α → Moment → σ → Prop where
  /-- it answers in one stretch -/
  | returns {c : Call σ α} {m : Moment} {s s' : σ} {ls ls' : Locks} {a : α}
    (ran : c.run owner m s ls = (.returned a, s', ls')) : Ends others owner c m s ls a m s'
  /-- it has to wait before -/
  | waits {c : Call σ α} {m m₁ m' : Moment} {s s₁ s₂ s' : σ} {ls ls₁ ls₂ : Locks} {w : Wait σ α}
    {go : Call σ α × σ × Locks} {a : α} (ran : c.run owner m s ls = (.waiting w, s₁, ls₁))
    (meanwhile : others m s₁ m₁ s₂) (isOver : w.Over owner m₁ s₂ ls₂ go)
    (rest : Ends others owner go.1 m₁ go.2.1 go.2.2 a m' s') :
    Ends others owner c m s ls a m' s'

/-- Wherever the call has to wait, and whatever the others do meanwhile, its answer is as `ret`
says. -/
def Bears (others : Moment → σ → Moment → σ → Prop) (ret : Moment → σ → α → Prop) :
    Call σ α → Moment → σ → Prop
  | done a, m, s => ret m s a
  | look k, m, s => (k m s).Bears others ret m s
  | save s' k, m, _ => k.Bears others ret m s'
  | acquire _ _ _ k, m, s =>
    ∀ m' s', others m s m' s' → ∀ got, (k got).Bears others ret m' s'
  | release _ k, m, s => k.Bears others ret m s
  | probe _ _ k, m, s => ∀ free, (k free).Bears others ret m s
  | pause _ sign k, m, s =>
    ∀ m' s', others m s m' s' → k.Bears others ret m' s' ∧
      ∀ s'', sign s' = some s'' → k.Bears others ret m' s''

variable {others : Moment → σ → Moment → σ → Prop} {ret ret' : Moment → σ → α → Prop}
  {m m' : Moment} {s s' : σ} {owner : Owner} {ls : Locks}

/-- **Part by part.** A call of two parts bears interruptions if its first part does, up to
whatever the second part needs. -/
theorem bears_bind {ret : Moment → σ → β → Prop} {c : Call σ α} {f : α → Call σ β} :
    (c.bind f).Bears others ret m s ↔
      c.Bears others (fun m s a => (f a).Bears others ret m s) m s := by
  induction c generalizing m s with
  | done a => exact Iff.rfl
  | look k ih => exact ih m s
  | save s' k ih => exact ih
  | acquire key mode patience k ih =>
    exact forall_congr' fun m' => forall_congr' fun s' => forall_congr' fun _ =>
      forall_congr' fun got => ih got
  | release key k ih => exact ih
  | probe key mode k ih => exact forall_congr' fun free => ih free
  | pause due sign k ih =>
    exact forall_congr' fun m' => forall_congr' fun s' => forall_congr' fun _ =>
      and_congr ih (forall_congr' fun s'' => forall_congr' fun _ => ih)

/-- What is decided in one stretch goes on with the answer. -/
theorem bears_update_bind {f : Int → σ → β × σ} {k : β → Call σ α}
    (h : (k (f m.stamp s).1).Bears others ret m (f m.stamp s).2) :
    ((update f).bind k).Bears others ret m s := h

/-- It bears them with less to promise. -/
theorem Bears.mono {c : Call σ α} (h : c.Bears others ret m s)
    (weaker : ∀ m s a, ret m s a → ret' m s a) : c.Bears others ret' m s := by
  induction c generalizing m s with
  | done a => exact weaker m s a h
  | look k ih => exact ih m s h
  | save s' k ih => exact ih h
  | acquire key mode patience k ih => exact fun m' s' went got => ih got (h m' s' went got)
  | release key k ih => exact ih h
  | probe key mode k ih => exact fun free => ih free (h free)
  | pause due sign k ih =>
    exact fun m' s' went =>
      ⟨ih (h m' s' went).1, fun s'' signed => ih ((h m' s' went).2 s'' signed)⟩

/-- What a call that waits may go on with bears interruptions. -/
def BearsAfter (others : Moment → σ → Moment → σ → Prop) (ret : Moment → σ → α → Prop) (m : Moment)
    (s : σ) (w : Wait σ α) : Prop :=
  ∀ m' s', others m s m' s' →
    match w with
    | .turn c => c.Bears others ret m' s'
    | .lock _ _ _ k => ∀ got, (k got).Bears others ret m' s'
    | .pause _ sign k =>
      k.Bears others ret m' s' ∧ ∀ s'', sign s' = some s'' → k.Bears others ret m' s''

/-- How a stretch ends of a call that bears interruptions: with what it promises, or in a wait that
the promise outlasts. -/
def BearsOn (others : Moment → σ → Moment → σ → Prop) (ret : Moment → σ → α → Prop) (m : Moment)
    (r : Stop σ α × σ × Locks) : Prop :=
  match r.1 with
  | .returned a => ret m r.2.1 a
  | .waiting w => BearsAfter others ret m r.2.1 w

theorem Bears.run {c : Call σ α} (h : c.Bears others ret m s) (refl : ∀ m s, others m s m s)
    (owner : Owner) (ls : Locks) : BearsOn others ret m (c.run owner m s ls) := by
  induction c generalizing s ls with
  | done a => exact h
  | look k ih => exact ih m s h ls
  | save s' k ih => exact ih h ls
  | acquire key mode patience k ih =>
    simp only [Call.run]
    split
    · exact ih true (h m s (refl m s) true) _
    · split
      · exact ih false (h m s (refl m s) false) _
      · exact h
  | release key k ih => exact ih h _
  | probe key mode k ih => exact ih _ (h _) ls
  | pause due sign k ih =>
    obtain ⟨on, taken⟩ := h m s (refl m s)
    simp only [Call.run]
    split
    · exact ih on ls
    · cases signed : sign s with
      | some s' => exact ih (taken s' signed) ls
      | none => exact h

/-- **The answer is as promised**, whatever happened on the way. -/
theorem Bears.ends {c : Call σ α} {a : α} (h : c.Bears others ret m s)
    (refl : ∀ m s, others m s m s) (ends : c.Ends others owner m s ls a m' s') : ret m' s' a := by
  induction ends with
  | @returns c m s s' ls ls' a ran =>
    have left := h.run refl owner ls
    rw [ran] at left
    exact left
  | @waits c m m₁ m' s s₁ s₂ s' ls ls₁ ls₂ w go a ran meanwhile isOver rest ih =>
    have left := h.run refl owner ls
    rw [ran] at left
    have after := left m₁ s₂ meanwhile
    refine ih ?_
    cases isOver with
    | turn c => exact after
    | granted patience k has => exact after true
    | gaveUp k not passed => exact after false
    | come sign k passed => exact after.1
    | signed k found => exact after.2 _ found

end Call

end Tenure
