import Mathlib.Logic.Hydra
import Tenure.Proofs.Tracking

/-!
# Runs come to rest

A call is a tree without infinite branches, so what a party waits for after a stretch is less
than what it waited for before (`Wait.next_wf`). Where no party goes on to another call, all that
is waited for gets less and less, and a run therefore comes to a state in which everybody has to
wait, and in which nothing is due any more that was due by a given time (`Traffic.run_rests`).
-/

namespace Tenure

variable {σ α : Type} {owner : Owner} {now : Moment} {s : σ} {ls : Locks} {w w' : Wait σ α}

/-- There is a way to go on after the wait `w` that leads to the wait `w'`. -/
def Wait.Next (w' w : Wait σ α) : Prop :=
  ∃ owner now s ls go, w.Over owner now s ls go ∧
    (go.1.run owner now go.2.1 go.2.2).1 = .waiting w'

/-- From where a stretch of a call has ended there is no way to go on and on. -/
theorem Call.acc_of_run {c : Call σ α} (h : (c.run owner now s ls).1 = .waiting w) :
    Acc Wait.Next w := by
  induction c generalizing owner now s ls w with
  | done a => cases h
  | look k ih => exact ih _ _ h
  | save s' k ih => exact ih h
  | acquire key mode patience k ih =>
    simp only [Call.run] at h
    split at h
    · exact ih true h
    · split at h
      · exact ih false h
      · cases h
        refine .intro _ ?_
        rintro w' ⟨owner, now, s, ls, go, isOver, h⟩
        cases isOver with
        | granted patience k has => exact ih true h
        | gaveUp k not passed => exact ih false h
  | release key k ih => exact ih h
  | probe key mode k ih => exact ih _ h
  | pause due sign k ih =>
    simp only [Call.run] at h
    split at h
    · exact ih h
    · cases found : sign s with
      | some s' =>
        rw [found] at h
        exact ih h
      | none =>
        rw [found] at h
        cases h
        refine .intro _ ?_
        rintro w' ⟨owner, now, s, ls, go, isOver, h⟩
        cases isOver with
        | come sign k passed => exact ih h
        | signed k found => exact ih h

/-- **No call goes on for ever.** -/
theorem Wait.next_wf : WellFounded (Wait.Next (σ := σ) (α := α)) :=
  ⟨fun w => .intro w fun _ ⟨_, _, _, _, go, _, h⟩ => go.1.acc_of_run h⟩

namespace Traffic

variable {t u : Traffic σ α}

/-- Nobody goes on to another call. -/
def LastCalls (t : Traffic σ α) : Prop := ∀ f ∈ t.flights, ∀ a, f.again a = none

/-- All that is waited for. -/
def waits (t : Traffic σ α) : Multiset (Wait σ α) := (t.flights.map Flight.wait : List (Wait σ α))

/-- **Steps make it less**: one wait is over, and there is at most one new one. -/
theorem LastCalls.step (last : t.LastCalls) (h : t.step = some u) :
    u.LastCalls ∧ Relation.CutExpand Wait.Next u.waits t.waits := by
  obtain ⟨f, hf, go, stretch⟩ := stepFrom_stretch rfl h
  obtain @⟨earlier, later, f, split, own, isOver⟩ := stretch
  have perm := perm_of_split split
  have before : t.waits = f.wait ::ₘ ((earlier ++ later).map Flight.wait : List (Wait σ α)) :=
    Multiset.coe_eq_coe.2 (perm.map Flight.wait)
  have after : (t.resume f (earlier ++ later) go).waits = Multiset.ofList (List.map Flight.wait _) :=
    Multiset.coe_eq_coe.2 ((flights_resume t f (earlier ++ later) go).map Flight.wait)
  refine ⟨fun g hg => ?_, ?_⟩
  · obtain ⟨g', mem, -, same⟩ := exists_of_mem_resume hg
    exact same ▸ last g' (perm.mem_iff.2 mem)
  rw [before, after]
  cases ran : (go.1.run f.owner t.clock go.2.1 go.2.2).1 with
  | waiting w =>
    refine ⟨{w}, f.wait, fun w' hw' => ?_, ?_⟩
    · obtain rfl := Multiset.mem_singleton.1 hw'
      exact ⟨_, _, _, _, go, own ▸ isOver, ran⟩
    · rw [Flight.after, List.singleton_append, List.map_cons, ← Multiset.cons_coe,
        Multiset.add_comm, Multiset.singleton_add, Multiset.cons_swap, ← Multiset.singleton_add,
        Multiset.add_comm]
  | returned a =>
    have none : f.after (.returned a) = [] := by
      rw [Flight.after, last f (perm.mem_iff.2 List.mem_cons_self)]
      rfl
    refine ⟨0, f.wait, fun w' hw' => absurd hw' (Multiset.notMem_zero _), ?_⟩
    rw [none, List.nil_append, Multiset.add_comm, Multiset.singleton_add, Multiset.add_zero]

/-- Whoever is due can go on. -/
theorem exists_step {f : Flight σ α} {due : Nat} (hf : f ∈ t.flights) (hd : f.wait.due = some due)
    (passed : due ≤ t.clock.elapsed) : ∃ u, t.step = some u := by
  cases h : t.step with
  | some u => exact ⟨u, rfl⟩
  | none =>
    have rests := ended_eq_none_of_stepFrom h f hf
    exact absurd (elapsed_lt_of_ended_eq_none rests hd) (Nat.not_lt.2 passed)

/-- **Runs come to rest**, if nobody goes on to another call. Then everybody has to wait beyond
the limit. -/
theorem run_rests (limit : Nat) (last : t.LastCalls) :
    ∃ n, (t.run (fun _ => false) (some limit) n).AtRest ∧
      ∀ due, (t.run (fun _ => false) (some limit) n).nextDue = some due → limit < due := by
  generalize h : t.waits = waits
  induction waits using Wait.next_wf.cutExpand.induction generalizing t with
  | _ waits ih =>
  subst h
  cases step : t.step with
  | some u =>
    obtain ⟨last', less⟩ := last.step step
    obtain ⟨n, rests⟩ := ih _ less last' rfl
    refine ⟨n + 1, ?_⟩
    simp only [run, step]
    exact rests
  | none =>
    have rest : t.AtRest := ended_eq_none_of_stepFrom step
    by_cases beyond : ∀ due, t.nextDue = some due → limit < due
    · exact ⟨0, rest, beyond⟩
    · simp only [not_forall, Nat.not_lt] at beyond
      obtain ⟨due, next, soon⟩ := beyond
      have hm : due ∈ t.flights.filterMap fun f => f.wait.due := List.min?_mem next
      obtain ⟨f, hf, hd⟩ := List.mem_filterMap.1 hm
      have last' : (t.elapseTo due).LastCalls := last
      obtain ⟨u, later⟩ := exists_step (t := t.elapseTo due) hf hd (Nat.le_refl _)
      obtain ⟨last', less⟩ := last'.step later
      obtain ⟨n, rests⟩ := ih _ less last' rfl
      refine ⟨n + 2, ?_⟩
      simp only [run, step, next, soon, if_true, later]
      exact rests

end Traffic

end Tenure
