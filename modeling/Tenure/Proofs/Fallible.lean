/-!
# Steps that may fail

What it takes for a step to succeed that is built from others, and which error there is when one
check after the other is made.
-/

namespace Tenure

variable {ε α β : Type} {x : Except ε α} {f : α → Except ε β} {b : β} {e : ε}

theorem map_eq_ok_iff {f : α → β} : x.map f = .ok b ↔ ∃ a, x = .ok a ∧ f a = b := by
  cases x <;> simp [Except.map]

/-- Values aside, a step succeeds if it has some value. -/
theorem map_unit_eq_ok_iff : (x.map fun _ => ()) = .ok () ↔ ∃ a, x = .ok a := by
  simp [map_eq_ok_iff]

theorem bind_eq_ok_iff : (x >>= f) = .ok b ↔ ∃ a, x = .ok a ∧ f a = .ok b := by
  cases x with
  | error e => exact iff_of_false nofun fun ⟨a, refused, _⟩ => nomatch refused
  | ok a => exact ⟨fun h => ⟨a, rfl, h⟩, fun ⟨_, rfl, h⟩ => h⟩

/-- If what comes next does not depend on the value, only the success of a step matters. -/
theorem map_bind {y r : Except ε Unit} (step : (x.map fun _ => ()) = y)
    (next : ∀ a, (f a).map (fun _ => ()) = r) :
    (x >>= f).map (fun _ => ()) = y >>= fun _ => r := by
  subst step
  cases x with
  | error e => rfl
  | ok a => exact next a

/-- **One check after the other** fails as the first does that fails. -/
theorem forM_eq_error_iff {check : α → Except ε PUnit} {xs : List α} :
    forM xs check = .error e ↔ ∃ before x after, xs = before ++ x :: after ∧ check x = .error e ∧
      ∀ y ∈ before, check y = .ok () := by
  induction xs with
  | nil => exact iff_of_false nofun fun ⟨before, _, _, split, _⟩ => by cases before <;> cases split
  | cons x xs ih =>
    rw [List.forM_cons]
    cases first : check x with
    | error e' =>
      constructor
      · rintro ⟨⟩
        exact ⟨[], x, xs, rfl, first, nofun⟩
      · rintro ⟨before, y, after, split, failed, passed⟩
        cases before with
        | nil =>
          cases split
          exact first.symm.trans failed
        | cons z before =>
          cases split
          cases first.symm.trans (passed x List.mem_cons_self)
    | ok u =>
      refine ih.trans ⟨?_, ?_⟩
      · rintro ⟨before, y, after, rfl, failed, passed⟩
        exact ⟨x :: before, y, after, rfl, failed, List.forall_mem_cons.2 ⟨first, passed⟩⟩
      · rintro ⟨before, y, after, split, failed, passed⟩
        cases before with
        | nil =>
          cases split
          cases first.symm.trans failed
        | cons z before =>
          cases split
          exact ⟨before, y, after, rfl, failed, fun w hw => passed w (List.mem_cons_of_mem _ hw)⟩

end Tenure
