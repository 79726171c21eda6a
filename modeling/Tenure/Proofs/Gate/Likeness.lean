import Tenure.Traffic

/-!
# Calls on states that look the same

Two states may differ in something that a call pays no regard to. If the call is *like* itself on
such states (`Call.Like`), it takes the same locks on both, waits for the same, and comes to the
same answer, and the states it leaves differ in nothing else (`Call.Like.run`). The two calls need
not be the same: what one has read and the other has not may still be in what they are about to
save.

A call on a part of a state does to that part what it would do if there were nothing else, and it
leaves the rest alone (`Call.run_within`).
-/

namespace Tenure

variable {σ τ α β : Type}

/-! ## Likeness -/

/-- Two calls do the same on states that are related by `R`, and save states that are. -/
inductive Call.Like (R : σ → σ → Prop) : Call σ α → Call σ α → Prop where
  /-- they answer the same -/
  | done (a : α) : Like R (.done a) (.done a)
  /-- they go on the same after a look -/
  | look {k d : Moment → σ → Call σ α} (rest : ∀ m s t, R s t → Like R (k m s) (d m t)) :
    Like R (.look k) (.look d)
  /-- they save the same -/
  | save {s t : σ} {c d : Call σ α} (same : R s t) (rest : Like R c d) :
    Like R (.save s c) (.save t d)
  /-- they ask for the same lock -/
  | acquire (key : Key) (mode : Mode) (patience : Option Nat) {k d : Bool → Call σ α}
    (rest : ∀ got, Like R (k got) (d got)) :
    Like R (.acquire key mode patience k) (.acquire key mode patience d)
  /-- they give the same lock back -/
  | release (key : Key) {c d : Call σ α} (rest : Like R c d) :
    Like R (.release key c) (.release key d)
  /-- they ask about the same lock -/
  | probe (key : Key) (mode : Mode) {k d : Bool → Call σ α}
    (rest : ∀ ready, Like R (k ready) (d ready)) : Like R (.probe key mode k) (.probe key mode d)
  /-- they wait for the same time, or the same sign -/
  | pause (due : Option Nat) {sign sign' : σ → Option σ} {c d : Call σ α}
    (signs : ∀ s t, R s t → Option.Rel R (sign s) (sign' t)) (rest : Like R c d) :
    Like R (.pause due sign c) (.pause due sign' d)

/-- What two calls wait for is the same. -/
inductive Wait.Like (R : σ → σ → Prop) : Wait σ α → Wait σ α → Prop where
  /-- both wait for their turn -/
  | turn {c d : Call σ α} (rest : c.Like R d) : Like R (.turn c) (.turn d)
  /-- both wait for a lock -/
  | lock (key : Key) (mode : Mode) (patience : Option Nat) {k d : Bool → Call σ α}
    (rest : ∀ got, (k got).Like R (d got)) :
    Like R (.lock key mode patience k) (.lock key mode patience d)
  /-- both wait for a time or a sign -/
  | pause (due : Option Nat) {sign sign' : σ → Option σ} {c d : Call σ α}
    (signs : ∀ s t, R s t → Option.Rel R (sign s) (sign' t)) (rest : c.Like R d) :
    Like R (.pause due sign c) (.pause due sign' d)

/-- Two stretches end the same. -/
inductive Stop.Like (R : σ → σ → Prop) : Stop σ α → Stop σ α → Prop where
  /-- with the same answer -/
  | returned (a : α) : Like R (.returned a) (.returned a)
  /-- with the same wait -/
  | waiting {w w' : Wait σ α} (like : w.Like R w') : Like R (.waiting w) (.waiting w')

/-- Two places in a run are the same but for states that are related. -/
structure Locks.Likely (R : σ → σ → Prop) (L : β → β → Prop) (r r' : β × σ × Locks) : Prop where
  /-- what is left to do, or what came of it -/
  what : L r.1 r'.1
  /-- the state -/
  state : R r.2.1 r'.2.1
  /-- the locks -/
  locks : r'.2.2 = r.2.2

variable {R : σ → σ → Prop}

/-- **Part by part.** -/
theorem Call.Like.bind {c d : Call σ α} {f g : α → Call σ β} (h : c.Like R d)
    (hf : ∀ a, (f a).Like R (g a)) : (c.bind f).Like R (d.bind g) := by
  induction h with
  | done a => exact hf a
  | look _ ih => exact .look ih
  | save same _ ih => exact .save same ih
  | acquire key mode patience _ ih => exact .acquire key mode patience ih
  | release key _ ih => exact .release key ih
  | probe key mode _ ih => exact .probe key mode ih
  | pause due signs _ ih => exact .pause due signs ih

/-- **Calls that are alike run alike.** -/
theorem Call.Like.run {c d : Call σ α} (h : c.Like R d) (owner : Owner) (m : Moment) {s t : σ}
    (same : R s t) (ls : Locks) :
    Locks.Likely R (Stop.Like R) (c.run owner m s ls) (d.run owner m t ls) := by
  induction h generalizing s t ls with
  | done a => exact ⟨.returned a, same, rfl⟩
  | look _ ih => exact ih m s t same same ls
  | save saved _ ih => exact ih saved ls
  | acquire key mode patience rest ih =>
    simp only [Call.run]
    split
    · exact ih true same _
    · split
      · exact ih false same _
      · exact ⟨.waiting (.lock key mode patience rest), same, rfl⟩
  | release key _ ih => exact ih same _
  | probe key mode _ ih => exact ih _ same ls
  | @pause due sign sign' c d signs rest ih =>
    simp only [Call.run]
    split
    · exact ih same ls
    · have found := signs s t same
      generalize sign s = o, sign' t = o' at found
      cases found with
      | none => exact ⟨.waiting (.pause due signs rest), same, rfl⟩
      | some taken => exact ih taken ls

/-- **Waits that are alike end alike.** -/
theorem Wait.Like.ended {w w' : Wait σ α} (h : w.Like R w') (alert : Bool) (owner : Owner)
    (m : Moment) {s t : σ} (same : R s t) (ls : Locks) :
    Option.Rel (Locks.Likely R (Call.Like R)) (w.ended alert owner m s ls)
      (w'.ended alert owner m t ls) := by
  cases h with
  | turn rest => exact .some ⟨rest, same, rfl⟩
  | lock key mode patience rest =>
    simp only [Wait.ended]
    split
    · exact .some ⟨rest true, same, rfl⟩
    · split
      · exact .some ⟨rest false, same, rfl⟩
      · exact .none
  | @pause due sign sign' c d signs rest =>
    simp only [Wait.ended]
    have found := signs s t same
    generalize sign s = o, sign' t = o' at found
    cases found with
    | none =>
      split
      · exact .some ⟨rest, same, rfl⟩
      · exact .none
    | some taken =>
      simp only [Option.isSome_some]
      split
      · exact .some ⟨rest, same, rfl⟩
      · exact .some ⟨rest, taken, rfl⟩

/-- Calls in flight of the same party that are alike, and go on alike. -/
structure Flight.Like (R : σ → σ → Prop) (f g : Flight σ α) : Prop where
  /-- the party is the same -/
  owner : g.owner = f.owner
  /-- what they wait for is the same -/
  wait : f.wait.Like R g.wait
  /-- what the party does next is the same -/
  again : ∀ a, Option.Rel (Call.Like R) (f.again a) (g.again a)

/-! ## Single effects -/

theorem Call.like_gets {f : σ → α} (read : ∀ s t, R s t → f s = f t) :
    (gets f).Like R (gets f) := by
  refine .look fun _ s t same => ?_
  rw [read s t same]
  exact .done (f t)

theorem Call.like_moment : (moment : Call σ Moment).Like R moment := .look fun m _ _ _ => .done m

theorem Call.like_now : (now : Call σ Int).Like R now := .look fun m _ _ _ => .done m.stamp

theorem Call.like_modify {f : σ → σ} (blind : ∀ s t, R s t → R (f s) (f t)) :
    (modify f).Like R (modify f) :=
  .look fun _ s t same => .save (blind s t same) (.done ())

theorem Call.like_update {f : Int → σ → α × σ}
    (blind : ∀ now s t, R s t → (f now s).1 = (f now t).1 ∧ R (f now s).2 (f now t).2) :
    (update f).Like R (update f) := by
  refine .look fun m s t same => ?_
  obtain ⟨answer, left⟩ := blind m.stamp s t same
  change (Call.save (f m.stamp s).2 (.done (f m.stamp s).1)).Like R
    (.save (f m.stamp t).2 (.done (f m.stamp t).1))
  rw [answer]
  exact .save left (.done _)

theorem Call.like_holding {key : Key} {mode : Mode} {c d : Call σ α} (body : c.Like R d) :
    (holding key mode c).Like R (holding key mode d) :=
  .acquire key mode none fun _ => body.bind fun a => .release key (.done a)

theorem Call.like_holdingUntil {key : Key} {due : Nat} {late late' c d : Call σ α}
    (tooLate : late.Like R late') (body : c.Like R d) :
    (holdingUntil key due late c).Like R (holdingUntil key due late' d) := by
  refine .acquire key .exclusive (some due) fun got => ?_
  cases got with
  | true => exact body.bind fun a => .release key (.done a)
  | false => exact tooLate

/-! ## Calls on a part of the state -/

variable (part : τ → σ) (put : σ → τ → τ)

/-- What a call on a part of a larger state waits for. -/
def Wait.within : Wait σ α → Wait τ α
  | .turn c => .turn (c.within part put)
  | .lock key mode patience k => .lock key mode patience fun b => (k b).within part put
  | .pause due sign k =>
    .pause due (fun t => (sign (part t)).map fun s => put s t) (k.within part put)

/-- Where a stretch of a call on a part of a larger state ends. -/
def Stop.within : Stop σ α → Stop τ α
  | .returned a => .returned a
  | .waiting w => .waiting (w.within part put)

/-- A call in flight on a part of a larger state. -/
def Flight.within (f : Flight σ α) : Flight τ α :=
  ⟨f.owner, f.wait.within part put, fun a => (f.again a).map fun c => c.within part put⟩

variable {part put} (part_put : ∀ s t, part (put s t) = s)
  (put_put : ∀ s s' t, put s (put s' t) = put s t) (put_part : ∀ t, put (part t) t = t)

include part_put put_put put_part in
/-- **A call on a part** of a state runs as it would on that part alone. -/
theorem Call.run_within (c : Call σ α) (owner : Owner) (m : Moment) (t : τ) (ls : Locks) :
    (c.within part put).run owner m t ls =
      let r := c.run owner m (part t) ls
      (r.1.within part put, put r.2.1 t, r.2.2) := by
  induction c generalizing t ls with
  | done a => simp only [within, run, Stop.within, put_part]
  | look k ih => exact ih m (part t) t ls
  | save s k ih =>
    simp only [within, run]
    rw [ih, part_put]
    simp only [put_put]
  | acquire key mode patience k ih =>
    simp only [within, run]
    split
    · exact ih true t _
    · split
      · exact ih false t _
      · simp only [Stop.within, Wait.within, put_part]
  | release key k ih => exact ih t _
  | probe key mode k ih => exact ih _ t ls
  | pause due sign k ih =>
    simp only [within, run]
    split
    · exact ih t ls
    · cases sign (part t) with
      | none => simp only [Option.map_none, Stop.within, Wait.within, put_part]
      | some s =>
        simp only [Option.map_some]
        rw [ih, part_put]
        simp only [put_put]

include put_part in
/-- It waits as it would there. -/
theorem Wait.ended_within (w : Wait σ α) (alert : Bool) (owner : Owner) (m : Moment) (t : τ)
    (ls : Locks) :
    (w.within part put).ended alert owner m t ls =
      (w.ended alert owner m (part t) ls).map fun go =>
        (go.1.within part put, put go.2.1 t, go.2.2) := by
  cases w with
  | turn c => simp only [within, ended, Option.map_some, put_part]
  | lock key mode patience k =>
    simp only [within, ended]
    split
    · simp only [Option.map_some, put_part]
    · split
      · simp only [Option.map_some, put_part]
      · rfl
  | pause due sign k =>
    simp only [within, ended, Option.isSome_map]
    split
    · simp only [Option.map_some, put_part]
    · cases sign (part t) <;> rfl

end Tenure
