import Tenure.Proofs.Exclusion
import Tenure.Traffic

/-!
# Calls run alone

What a call comes to when nobody else holds a lock. It then gets every lock at once that it
does not hold itself, so it answers in its first stretch unless it waits for a time or a sign.

**The text of a call** says what it comes to: `Call.Alone` goes through a call part by part
(`alone_bind`), and `Call.Alone.run` says that the stretch is as promised. Calls give back
whatever they take, so most of the time only their answer and the state matter, which is what
`Call.Freely` is about.
-/

namespace Tenure

variable {σ τ α β : Type}

/-! ## The locks of one party -/

namespace Locks

variable {ls : Locks} {owner : Owner} {held : List Key} {key : Key}

/-- Nobody holds a lock or waits for one. -/
def Free (ls : Locks) : Prop := ∀ key, ls.get key = Lock.free

/-- One party holds some keys, and nobody else holds a lock or waits for one. -/
structure Only (ls : Locks) (owner : Owner) (held : List Key) : Prop where
  /-- its own keys it holds alone -/
  own : ∀ key ∈ held, ∃ mode, ls.get key = ⟨[(owner, mode)], []⟩
  /-- the others are free -/
  rest : ∀ key, key ∉ held → ls.get key = Lock.free

theorem free_empty : Locks.empty.Free := fun _ => rfl

/-- Locks that are each free are free. -/
theorem free_of_values (each : ∀ l ∈ ls.table.values, l = Lock.free) : ls.Free := by
  intro key
  rw [get]
  cases h : ls.table.get? key with
  | none => rfl
  | some l =>
    exact each l (List.mem_map.2 ⟨(key, l), Table.mem_entries_iff.2 h, rfl⟩)

/-- Where nothing is locked no lock is held by two. -/
theorem Free.proper (free : ls.Free) : ls.Proper := by
  intro key
  rw [free key]
  exact Lock.proper_free

theorem only_nil : ls.Only owner [] ↔ ls.Free := by
  refine ⟨fun h key => h.rest key List.not_mem_nil, fun h => ⟨fun key hk => ?_, fun key _ => h key⟩⟩
  exact absurd hk List.not_mem_nil

/-- A lock that a party does not hold yet is there for it, if nobody else holds any. -/
theorem Only.ready (h : ls.Only owner held) (new : key ∉ held) (mode : Mode) :
    (ls.get key).ready mode = true := by
  rw [h.rest key new]
  cases mode <;> rfl

/-- A party that is alone is served at once. -/
theorem Only.request (h : ls.Only owner held) (new : key ∉ held) (mode : Mode) :
    (ls.request owner key mode).1 = true ∧
      (ls.request owner key mode).2.Only owner (key :: held) := by
  have served : (ls.get key).request owner mode = (true, ⟨[(owner, mode)], []⟩) := by
    rw [Lock.request, if_pos (h.ready new mode), h.rest key new]
    rfl
  refine ⟨congrArg Prod.fst served, ?_, ?_⟩
  · intro key' hk
    simp only [Locks.request, get_set, served]
    split
    · exact ⟨mode, rfl⟩
    · next other => exact h.own key' ((List.mem_cons.1 hk).resolve_left other)
  · intro key' hk
    obtain ⟨other, hk⟩ := not_or.1 (fun h => hk (List.mem_cons.2 h))
    simp only [Locks.request, get_set, if_neg other]
    exact h.rest key' hk

/-- What it gives back is free. -/
theorem Only.release (h : ls.Only owner held) (key : Key) :
    (ls.release owner key).Only owner (held.filter fun k => k ≠ key) := by
  refine ⟨?_, ?_⟩
  · intro key' hk
    obtain ⟨hk, other⟩ := List.mem_filter.1 hk
    simp only [Locks.release, get_set, if_neg (of_decide_eq_true other)]
    exact h.own key' hk
  · intro key' hk
    simp only [Locks.release, get_set]
    split
    · next same =>
      subst same
      by_cases mine : key' ∈ held
      · obtain ⟨mode, e⟩ := h.own key' mine
        rw [e]
        simp [Lock.release, Lock.promote, Lock.promoted, Lock.free]
      · rw [h.rest key' mine]
        rfl
    · next other =>
      refine h.rest key' fun mine => hk (List.mem_filter.2 ⟨mine, ?_⟩)
      exact decide_eq_true other

end Locks

/-! ## What a call comes to -/

namespace Call

/-- Run by a party that holds `held` while nobody else holds a lock, the call answers in one
stretch, as `ret` says. -/
def Alone (ret : List Key → σ → α → Prop) : Call σ α → (held : List Key) → Moment → σ → Prop
  | done a, held, _, s => ret held s a
  | look k, held, m, s => (k m s).Alone ret held m s
  | save s' k, held, m, _ => k.Alone ret held m s'
  | acquire key _ _ k, held, m, s => key ∉ held ∧ (k true).Alone ret (key :: held) m s
  | release key k, held, m, s => k.Alone ret (held.filter fun k => k ≠ key) m s
  | probe key _ k, held, m, s => key ∉ held ∧ (k true).Alone ret held m s
  | pause due sign k, held, m, s =>
    if reached due m.elapsed then k.Alone ret held m s
    else ∃ s', sign s = some s' ∧ k.Alone ret held m s'

variable {ret ret' : List Key → σ → α → Prop} {held : List Key} {m : Moment} {s : σ}

/-- **Part by part.** A call of two parts comes to what its second part comes to, from where
the first has left things. -/
theorem alone_bind {ret : List Key → σ → β → Prop} {c : Call σ α} {f : α → Call σ β} :
    (c.bind f).Alone ret held m s ↔
      c.Alone (fun held s a => (f a).Alone ret held m s) held m s := by
  induction c generalizing held s with
  | done a => exact Iff.rfl
  | look k ih => exact ih m s
  | save s' k ih => exact ih
  | acquire key mode patience k ih => exact and_congr_right fun _ => ih true
  | release key k ih => exact ih
  | probe key mode k ih => exact and_congr_right fun _ => ih true
  | pause due sign k ih =>
    simp only [Call.bind, Alone]
    split
    · exact ih
    · exact exists_congr fun s' => and_congr_right fun _ => ih

/-- A call comes to less as well. -/
theorem Alone.mono {c : Call σ α} (h : c.Alone ret held m s)
    (weaker : ∀ held s a, ret held s a → ret' held s a) : c.Alone ret' held m s := by
  induction c generalizing held s with
  | done a => exact weaker held s a h
  | look k ih => exact ih m s h
  | save s' k ih => exact ih h
  | acquire key mode patience k ih => exact ⟨h.1, ih true h.2⟩
  | release key k ih => exact ih h
  | probe key mode k ih => exact ⟨h.1, ih true h.2⟩
  | pause due sign k ih =>
    simp only [Alone] at h ⊢
    split
    · next come => exact ih (by rwa [if_pos come] at h)
    · next early =>
      rw [if_neg early] at h
      obtain ⟨s', taken, h⟩ := h
      exact ⟨s', taken, ih h⟩

/-- **The stretch is as promised**: the call answers in it. -/
theorem Alone.run {c : Call σ α} {owner : Owner} {ls : Locks} (h : c.Alone ret held m s)
    (only : ls.Only owner held) :
    ∃ a held' s' ls', c.run owner m s ls = (.returned a, s', ls') ∧ ls'.Only owner held' ∧
      ret held' s' a := by
  induction c generalizing held s ls with
  | done a => exact ⟨a, held, s, ls, rfl, only, h⟩
  | look k ih => exact ih m s h only
  | save s' k ih => exact ih h only
  | acquire key mode patience k ih =>
    obtain ⟨new, h⟩ := h
    obtain ⟨served, only⟩ := only.request new mode
    simp only [Call.run, served, if_true]
    exact ih true h only
  | release key k ih => exact ih h (only.release key)
  | probe key mode k ih =>
    obtain ⟨new, h⟩ := h
    simp only [Call.run, only.ready new mode]
    exact ih true h only
  | pause due sign k ih =>
    simp only [Alone] at h
    simp only [Call.run]
    split at h
    · next come => rw [if_pos come]; exact ih h only
    · next early =>
      obtain ⟨s', taken, h⟩ := h
      rw [if_neg early, taken]
      exact ih h only

/-- A call on a part of a state comes to what it comes to on that part. -/
theorem alone_within {part : τ → σ} {put : σ → τ → τ} {t : τ}
    {ret : List Key → τ → α → Prop} {c : Call σ α} (part_put : ∀ s t, part (put s t) = s)
    (put_put : ∀ s s' t, put s (put s' t) = put s t)
    (h : c.Alone (fun held s a => ret held (put s t) a) held m s) :
    (c.within part put).Alone ret held m (put s t) := by
  induction c generalizing held s with
  | done a => exact h
  | look k ih =>
    change ((k m (part (put s t))).within part put).Alone ret held m (put s t)
    rw [part_put]
    exact ih m s h
  | save s' k ih =>
    change (k.within part put).Alone ret held m (put s' (put s t))
    rw [put_put]
    exact ih h
  | acquire key mode patience k ih => exact ⟨h.1, ih true h.2⟩
  | release key k ih => exact ih h
  | probe key mode k ih => exact ⟨h.1, ih true h.2⟩
  | pause due sign k ih =>
    simp only [within, Alone, part_put] at h ⊢
    split
    · next come => exact ih (by rwa [if_pos come] at h)
    · next early =>
      rw [if_neg early] at h
      obtain ⟨s', taken, h⟩ := h
      exact ⟨put s' t, by rw [taken, Option.map_some, put_put], ih h⟩

/-! ### Calls that give back what they take -/

/-- Run by a party that holds `held` while nobody else holds a lock, the call answers in one
stretch, as `R` says, and holds the same as before. -/
def Freely (c : Call σ α) (held : List Key) (m : Moment) (s : σ) (R : σ → α → Prop) : Prop :=
  c.Alone (fun held' s a => held' = held ∧ R s a) held m s

variable {R R' : σ → α → Prop} {key : Key}

/-- What comes of a call may be said in fewer words. -/
theorem Freely.mono {c : Call σ α} (h : c.Freely held m s R) (weaker : ∀ s a, R s a → R' s a) :
    c.Freely held m s R' :=
  Alone.mono h fun _ s a h => ⟨h.1, weaker s a h.2⟩

/-- One call after the other. -/
theorem Freely.bind {R' : σ → β → Prop} {c : Call σ α} {f : α → Call σ β}
    (h : c.Freely held m s R) (hf : ∀ s a, R s a → (f a).Freely held m s R') :
    (c.bind f).Freely held m s R' := by
  refine alone_bind.2 (Alone.mono h fun held' s a came => ?_)
  obtain ⟨rfl, came⟩ := came
  exact hf s a came

theorem freely_done {a : α} (h : R s a) : (done a).Freely held m s R := ⟨rfl, h⟩

theorem freely_update {f : Int → σ → α × σ} (h : R (f m.stamp s).2 (f m.stamp s).1) :
    (update f).Freely held m s R := ⟨rfl, h⟩

theorem freely_update_bind {f : Int → σ → β × σ} {k : β → Call σ α}
    (h : (k (f m.stamp s).1).Freely held m (f m.stamp s).2 R) :
    ((update f).bind k).Freely held m s R := h

theorem freely_modify {f : σ → σ} {c : Call σ α} (h : c.Freely held m (f s) R) :
    ((modify f).bind fun _ => c).Freely held m s R := h

/-- A call that goes on with what it reads off the state. -/
theorem freely_gets {f : σ → β} {b : β} {k : β → Call σ α} (read : f s = b)
    (h : (k b).Freely held m s R) : ((gets f).bind k).Freely held m s R := by
  subst read
  exact h

/-- A call that goes on only if a test of the state says so. -/
theorem freely_unless {test : σ → Bool} {c d : Call σ α}
    (no : test s = false → c.Freely held m s R) (yes : test s = true → d.Freely held m s R) :
    ((gets test).bind fun b => if !b then c else d).Freely held m s R := by
  cases ht : test s with
  | false => exact freely_gets ht (no ht)
  | true => exact freely_gets ht (yes ht)

/-- What a call holds once it has given back the lock it took last. -/
theorem filter_key_cons (new : key ∉ held) :
    ((key :: held).filter fun k => k ≠ key) = held := by
  rw [List.filter_cons_of_neg (by simp), List.filter_eq_self]
  intro k hk
  exact decide_eq_true fun e => new (e ▸ hk)

/-- Work under a lock, which is to be had at once. -/
theorem freely_holding (mode : Mode) {body : Call σ α} (new : key ∉ held)
    (h : body.Freely (key :: held) m s R) : (holding key mode body).Freely held m s R := by
  refine ⟨new, ?_⟩
  change (body.bind fun a => release key (done a)).Alone _ (key :: held) m s
  refine alone_bind.2 (Alone.mono h fun held' s a came => ?_)
  obtain ⟨rfl, came⟩ := came
  exact ⟨filter_key_cons new, came⟩

/-- Work under a lock, which does not come too late. -/
theorem freely_holdingUntil {due : Nat} {late body : Call σ α} (new : key ∉ held)
    (h : body.Freely (key :: held) m s R) : (holdingUntil key due late body).Freely held m s R :=
  freely_holding .exclusive new h

/-- A call on a part of a state comes to what it comes to on that part. -/
theorem Freely.within {part : τ → σ} {put : σ → τ → τ} {t : τ} {R : τ → α → Prop}
    {c : Call σ α} (part_put : ∀ s t, part (put s t) = s)
    (put_put : ∀ s s' t, put s (put s' t) = put s t)
    (h : c.Freely held m s fun s a => R (put s t) a) :
    (c.within part put).Freely held m (put s t) R :=
  alone_within part_put put_put h

/-- **A call run on free locks** answers at once and leaves the locks free. -/
theorem Freely.run {c : Call σ α} {ls : Locks} (h : c.Freely [] m s R) (free : ls.Free)
    (owner : Owner) :
    ∃ a s' ls', c.run owner m s ls = (.returned a, s', ls') ∧ ls'.Free ∧ R s' a := by
  obtain ⟨a, held', s', ls', e, only, rfl, h⟩ := Alone.run h (Locks.only_nil.2 free)
  exact ⟨a, s', ls', e, Locks.only_nil.1 only, h⟩

end Call

end Tenure
