import Mathlib.Data.List.Nodup
import Mathlib.Data.Set.Card
import Mathlib.Data.Set.Function
import Tenure.Proofs.Codes
import Tenure.Proofs.Settlement

/-!
# Codes and compartments

The codes of a bank are on file in the bank, the holds of the parcels are in the ledger. Nothing
but the name of a compartment links the two, and each lets go of a parcel on its own when the time
of that is over. They match all the same (`Matched`): the compartments that somebody has are those
of the codes that work, one for each (`Matched.bijOn`).

This is kept by whatever happens to the one or to the other: time passes (`Matched.later`), holds
are settled (`Matched.leftAlone`), a parcel gets a compartment and a code (`Matched.insert`), a
code is used up and its compartment freed (`Matched.use`), and there is one more compartment
(`Matched.grow`).
-/

namespace Tenure

/-! ## What counts at a time -/

/-- A hold counts until its deadline. -/
theorem Resource.HeldUntil.available_iff {r : Resource} {deadline now : Int}
    (h : r.HeldUntil deadline) : r.statusAt now = .available ↔ deadline ≤ now := by
  rw [← h.lapsed_iff]
  constructor
  · intro free
    by_contra live
    rw [statusAt_of_not_lapsed (by simpa using live), h.1] at free
    cases free
  · exact statusAt_eq_available_of_lapsed

theorem Resource.statusAt_of_available {r : Resource} (free : r.status = .available) (now : Int) :
    r.statusAt now = .available := by
  rw [statusAt_of_not_lapsed (by simp [lapsed, free]), free]

/-- What nobody has, nobody will have because time passes. -/
theorem Resource.available_of_le {r : Resource} {now now' : Int} (free : r.statusAt now = .available)
    (le : now ≤ now') : r.statusAt now' = .available := by
  cases lapsed : r.lapsed now with
  | true => exact statusAt_eq_available_of_lapsed (Ledger.lapsed_mono lapsed le)
  | false =>
    rw [statusAt_of_not_lapsed lapsed] at free
    exact statusAt_of_available free now'

theorem Assignment.active_iff {a : Assignment} {now : Int} :
    a.active now = true ↔ a.pickedUp = false ∧ now < a.deadline := by
  cases used : a.pickedUp <;> simp [active, expired, used]

/-- A parcel is in its compartment. -/
structure Assignment.Placed (a : Assignment) (l : Ledger) : Prop where
  /-- the compartment is held for it, as long as the code works -/
  holds : ∃ c, a.Holds c l
  /-- the compartment has the size that it is said to have -/
  size : (l.resources.get? a.compartment).map Resource.size = some (some a.size)

/-- A code on file works for the parcel `a`. -/
structure Works (codes : Table String Assignment) (now : Int) (code : String) (a : Assignment) :
    Prop where
  /-- it is that of the parcel -/
  here : codes.get? code = some a
  /-- it was not used yet -/
  unused : a.pickedUp = false
  /-- its time is not over -/
  lasts : now < a.deadline

/-- How an assignment is marked when its parcel is picked up. -/
def Assignment.used (a : Assignment) : Assignment := { a with pickedUp := true }

variable {codes : Table String Assignment} {group id : Id} {now now' : Int} {l l' : Ledger}
  {code code' : String} {a a' : Assignment}

namespace Assignment.Placed

theorem of_same (h : a.Placed l)
    (same : l'.resources.get? a.compartment = l.resources.get? a.compartment) : a.Placed l' := by
  obtain ⟨c, holds⟩ := h.holds
  exact ⟨⟨c, same ▸ holds.here, holds.holder, holds.deadline, holds.single⟩, same ▸ h.size⟩

theorem heldUntil (h : a.Placed l) :
    ∃ r, l.resources.get? a.compartment = some r ∧ r.HeldUntil a.deadline := by
  obtain ⟨c, holds⟩ := h.holds
  obtain ⟨r, hr, status, claim, -⟩ := holds.here
  exact ⟨r, hr, status, by rw [claim, Option.bind_some, holds.deadline]⟩

/-- The compartment counts as free once the time of the code is over, and not before. -/
theorem available_iff (h : a.Placed l) {r : Resource}
    (hr : l.resources.get? a.compartment = some r) :
    r.statusAt now = .available ↔ a.deadline ≤ now := by
  obtain ⟨r', hr', held⟩ := h.heldUntil
  obtain rfl := Option.some.inj (hr.symm.trans hr')
  exact held.available_iff

end Assignment.Placed

namespace Works

/-- A code that works has worked before. -/
theorem before (h : Works codes now' code a) (le : now ≤ now') : Works codes now code a :=
  ⟨h.here, h.unused, Int.lt_of_le_of_lt le h.lasts⟩

/-- Of the others, one more code on file makes no difference. -/
theorem of_insert (h : Works (codes.insert a.code a) now code' a') :
    (code' = a.code ∧ a' = a) ∨ (code' ≠ a.code ∧ Works codes now code' a') := by
  have here := h.here
  rw [Table.get?_insert] at here
  split at here
  · next same => exact .inl ⟨same, (Option.some.inj here).symm⟩
  · next other => exact .inr ⟨other, here, h.unused, h.lasts⟩

theorem insert (h : Works codes now code' a') (other : code' ≠ a.code) :
    Works (codes.insert a.code a) now code' a' :=
  ⟨by rw [Table.get?_insert, if_neg other, h.here], h.unused, h.lasts⟩

/-- A code that was used up does not work, and for the others nothing has changed. -/
theorem of_used (h : Works (codes.modify code Assignment.used) now code' a') :
    code' ≠ code ∧ Works codes now code' a' := by
  have here := h.here
  rw [Table.get?_modify] at here
  split at here
  · obtain ⟨a₀, -, rfl⟩ := Option.map_eq_some_iff.1 here
    cases h.unused
  · next other => exact ⟨other, here, h.unused, h.lasts⟩

theorem use (h : Works codes now code' a') (other : code' ≠ code) :
    Works (codes.modify code Assignment.used) now code' a' :=
  ⟨by rw [Table.get?_modify, if_neg other, h.here], h.unused, h.lasts⟩

end Works

/-! ## They match -/

/-- The codes on file and the compartments of a group match. -/
structure Matched (codes : Table String Assignment) (group : Id) (now : Int) (l : Ledger) :
    Prop where
  /-- codes are filed under themselves -/
  filed : ∀ code a, codes.get? code = some a → a.code = code
  /-- no compartment is listed twice -/
  nodup : (l.members group).Nodup
  /-- the parcel of a code that works is in its compartment -/
  placed : ∀ code a, Works codes now code a → a.compartment ∈ l.members group ∧ a.Placed l
  /-- a compartment is free, or there is a code that works for it -/
  taken : ∀ id ∈ l.members group, ∃ r, l.resources.get? id = some r ∧
    (r.statusAt now = .available ∨ ∃ code a, Works codes now code a ∧ a.compartment = id)
  /-- no two codes work for the same compartment -/
  apart : ∀ code a code' a', Works codes now code a → Works codes now code' a' →
    a.compartment = a'.compartment → code = code'

/-- Counting settles nothing. -/
theorem Ledger.ahead_count (l : Ledger) (now : Int) (x : Metric) : l.Ahead now (l.count x) :=
  (Ahead.refl now l).quiet (.refl l) (l.quiet_count x)

/-- Nobody has touched the members of a group; at most holds were settled that had lapsed. -/
structure Ledger.LeftAlone (group : Id) (now : Int) (l l' : Ledger) : Prop where
  /-- the members are the same -/
  members : l'.members group = l.members group
  /-- each is as it was, or with a lapsed hold settled -/
  found : ∀ id ∈ l.members group, l'.resources.get? id = l.resources.get? id ∨
    ∃ r, l.resources.get? id = some r ∧ r.lapsed now = true ∧ l'.resources.get? id = some r.freed

theorem Ledger.Ahead.leftAlone (h : l.Ahead now l') (group : Id) : l.LeftAlone group now l' :=
  ⟨h.akin.members group, fun id _ => h.found id⟩

namespace Matched

/-- Nobody else has the compartment of a code that works. -/
theorem not_available (h : Matched codes group now l) (works : Works codes now code a)
    {r : Resource} (hr : l.resources.get? a.compartment = some r) : r.statusAt now ≠ .available := by
  intro free
  have := ((h.placed code a works).2.available_iff hr).1 free
  have := works.lasts
  omega

/-- **Time passes.** A code stops working when the hold of its parcel lapses. -/
theorem later (h : Matched codes group now l) (le : now ≤ now') : Matched codes group now' l where
  filed := h.filed
  nodup := h.nodup
  placed code a works := h.placed code a (works.before le)
  taken id hid := by
    obtain ⟨r, hr, free | ⟨code, a, works, rfl⟩⟩ := h.taken id hid
    · exact ⟨r, hr, .inl (r.available_of_le free le)⟩
    · refine ⟨r, hr, ?_⟩
      rcases Int.lt_or_le now' a.deadline with lasts | past
      · exact .inr ⟨code, a, ⟨works.here, works.unused, lasts⟩, rfl⟩
      · exact .inl (((h.placed code a works).2.available_iff hr).2 past)
  apart code a code' a' works works' := h.apart code a code' a' (works.before le) (works'.before le)

/-- **Holds are settled**, and there is nothing else. -/
theorem leftAlone (h : Matched codes group now l) (same : l.LeftAlone group now l') :
    Matched codes group now l' where
  filed := h.filed
  nodup := same.members ▸ h.nodup
  placed code a works := by
    obtain ⟨member, placed⟩ := h.placed code a works
    refine ⟨same.members ▸ member, ?_⟩
    rcases same.found a.compartment member with as | ⟨r, hr, lapsed, -⟩
    · exact placed.of_same as
    · exact absurd (Resource.statusAt_eq_available_of_lapsed lapsed) (h.not_available works hr)
  taken id hid := by
    rw [same.members] at hid
    obtain ⟨r, hr, counts⟩ := h.taken id hid
    rcases same.found id hid with as | ⟨r', -, -, freed⟩
    · exact ⟨r, as.trans hr, counts⟩
    · exact ⟨r'.freed, freed, .inl rfl⟩
  apart := h.apart

/-- **A parcel gets a compartment and a code.** -/
theorem insert (h : Matched codes group now l) (new : codes.get? a.code = none)
    (member : a.compartment ∈ l.members group)
    (free : ∀ r, l.resources.get? a.compartment = some r → r.statusAt now = .available)
    (members : l'.members group = l.members group)
    (others : ∀ id, id ≠ a.compartment → l'.resources.get? id = l.resources.get? id)
    (unused : a.pickedUp = false) (placed : a.Placed l') :
    Matched (codes.insert a.code a) group now l' := by
  -- the compartment is not that of another code
  have elsewhere : ∀ code' a', Works codes now code' a' → a'.compartment ≠ a.compartment := by
    intro code' a' works same
    obtain ⟨r, hr, -⟩ := (h.placed code' a' works).2.heldUntil
    exact h.not_available works hr (free r (same ▸ hr))
  refine { filed := ?_, nodup := members ▸ h.nodup, placed := ?_, taken := ?_, apart := ?_ }
  · intro code' a' here
    rw [Table.get?_insert] at here
    split at here
    · next same =>
      obtain rfl := Option.some.inj here
      exact same.symm
    · exact h.filed code' a' here
  · intro code' a' works
    rw [members]
    rcases works.of_insert with ⟨-, rfl⟩ | ⟨-, works⟩
    · exact ⟨member, placed⟩
    · obtain ⟨member', placed'⟩ := h.placed code' a' works
      exact ⟨member', placed'.of_same (others _ (elsewhere code' a' works))⟩
  · intro id hid
    rw [members] at hid
    by_cases same : id = a.compartment
    · subst same
      obtain ⟨r, hr, held⟩ := placed.heldUntil
      refine ⟨r, hr, ?_⟩
      rcases Int.lt_or_le now a.deadline with lasts | past
      · exact .inr ⟨a.code, a, ⟨by rw [Table.get?_insert, if_pos rfl], unused, lasts⟩, rfl⟩
      · exact .inl (held.available_iff.2 past)
    · obtain ⟨r, hr, counts⟩ := h.taken id hid
      refine ⟨r, (others id same).trans hr, counts.imp_right ?_⟩
      rintro ⟨code', a', works, rfl⟩
      refine ⟨code', a', works.insert fun e => ?_, rfl⟩
      have here := works.here
      rw [e, new] at here
      cases here
  · intro code₁ a₁ code₂ a₂ works₁ works₂ same
    rcases works₁.of_insert with ⟨e₁, is₁⟩ | ⟨-, works₁⟩ <;>
      rcases works₂.of_insert with ⟨e₂, is₂⟩ | ⟨-, works₂⟩
    · exact e₁.trans e₂.symm
    · exact absurd (is₁ ▸ same.symm) (elsewhere code₂ a₂ works₂)
    · exact absurd (is₂ ▸ same) (elsewhere code₁ a₁ works₁)
    · exact h.apart code₁ a₁ code₂ a₂ works₁ works₂ same

/-- **A code is used up** and its compartment freed. -/
theorem use (h : Matched codes group now l) (works : Works codes now code a)
    (members : l'.members group = l.members group)
    (freed : ∃ r, l'.resources.get? a.compartment = some r ∧ r.status = .available)
    (others : ∀ id, id ≠ a.compartment → l'.resources.get? id = l.resources.get? id) :
    Matched (codes.modify code Assignment.used) group now l' := by
  -- the compartment is not that of another code
  have elsewhere : ∀ code' a', code' ≠ code → Works codes now code' a' →
      a'.compartment ≠ a.compartment :=
    fun code' a' other works' same => other (h.apart code' a' code a works' works same)
  refine { filed := ?_, nodup := members ▸ h.nodup, placed := ?_, taken := ?_, apart := ?_ }
  · intro code' a' here
    rw [Table.get?_modify] at here
    split at here
    · next same =>
      subst same
      obtain ⟨a₀, here₀, rfl⟩ := Option.map_eq_some_iff.1 here
      exact h.filed code' a₀ here₀
    · exact h.filed code' a' here
  · intro code' a' works'
    obtain ⟨other, works'⟩ := works'.of_used
    obtain ⟨member, placed⟩ := h.placed code' a' works'
    exact ⟨members ▸ member, placed.of_same (others _ (elsewhere code' a' other works'))⟩
  · intro id hid
    rw [members] at hid
    by_cases same : id = a.compartment
    · subst same
      obtain ⟨r, hr, free⟩ := freed
      exact ⟨r, hr, .inl (Resource.statusAt_of_available free now)⟩
    · obtain ⟨r, hr, counts⟩ := h.taken id hid
      refine ⟨r, (others id same).trans hr, counts.imp_right ?_⟩
      rintro ⟨code', a', works', rfl⟩
      refine ⟨code', a', works'.use fun e => same ?_, rfl⟩
      subst e
      rw [Option.some.inj (works'.here.symm.trans works.here)]
  · intro code₁ a₁ code₂ a₂ works₁ works₂ same
    exact h.apart code₁ a₁ code₂ a₂ works₁.of_used.2 works₂.of_used.2 same

/-- **There is one more compartment**, and nobody has it. -/
theorem grow (h : Matched codes group now l) {r : Resource}
    (unknown : l.resources.get? id = none)
    (members : l'.members group = l.members group ++ [id])
    (found : l'.resources.get? id = some r) (free : r.status = .available)
    (others : ∀ id', id' ≠ id → l'.resources.get? id' = l.resources.get? id') :
    Matched codes group now l' := by
  have new : ∀ id' ∈ l.members group, id' ≠ id := by
    rintro id' hid rfl
    obtain ⟨r, hr, -⟩ := h.taken id' hid
    cases unknown.symm.trans hr
  refine { filed := h.filed, nodup := ?_, placed := ?_, taken := ?_, apart := h.apart }
  · rw [members]
    exact List.nodup_append.2 ⟨h.nodup, List.nodup_singleton id,
      fun id' hid id'' hid' => List.mem_singleton.1 hid' ▸ new id' hid⟩
  · intro code a works
    obtain ⟨member, placed⟩ := h.placed code a works
    rw [members]
    exact ⟨List.mem_append_left _ member, placed.of_same (others _ (new _ member))⟩
  · intro id' hid
    rw [members] at hid
    rcases List.mem_append.1 hid with hid | hid
    · obtain ⟨r', hr', counts⟩ := h.taken id' hid
      exact ⟨r', (others id' (new id' hid)).trans hr', counts⟩
    · obtain rfl := List.mem_singleton.1 hid
      exact ⟨r, found, .inl (Resource.statusAt_of_available free now)⟩

/-- **A code that works opens its compartment**, under either policy. -/
theorem opens (h : Matched codes group now l) (works : Works codes now code a)
    (policy : HolderPolicy) : (l.cancel policy now a.compartment a.parcel).1 = .ok () := by
  obtain ⟨-, placed⟩ := h.placed code a works
  obtain ⟨c, holds⟩ := placed.holds
  obtain ⟨r, hr, status, claim, -⟩ := holds.here
  have taken := h.not_available works hr
  have live := Resource.not_lapsed_of_taken taken
  have found := l.get?_settle_self now a.compartment
  rw [hr, Option.map_some, Resource.settled_of_not_lapsed live] at found
  have may : Ledger.mayNot policy r a.parcel = false := by
    simp [Ledger.mayNot, Resource.holder, claim, holds.holder]
  simp only [Ledger.cancel, found, status, may, claim, Option.bind_some, holds.single]
  rfl

/-! ## One for each -/

/-- The codes that work. -/
def working (codes : Table String Assignment) (now : Int) : Set Assignment :=
  {a | Works codes now a.code a}

end Matched

/-- The members of a group that somebody has. -/
def Ledger.taken (l : Ledger) (group : Id) (now : Int) : Set Id :=
  {id | id ∈ l.members group ∧ ∃ r, l.resources.get? id = some r ∧ r.statusAt now ≠ .available}

namespace Matched

/-- **The compartments that somebody has are those of the codes that work, one for each.** -/
theorem bijOn (h : Matched codes group now l) :
    Set.BijOn Assignment.compartment (working codes now) (l.taken group now) := by
  refine ⟨fun a works => ?_, fun a works a' works' same => ?_, fun id hid => ?_⟩
  · obtain ⟨member, placed⟩ := h.placed a.code a works
    obtain ⟨r, hr, -⟩ := placed.heldUntil
    exact ⟨member, r, hr, h.not_available works hr⟩
  · have same := h.apart a.code a a'.code a' works works' same
    have here : codes.get? a.code = some a := works.here
    rw [same, works'.here] at here
    exact (Option.some.inj here).symm
  · obtain ⟨member, r, hr, taken⟩ := hid
    obtain ⟨r', hr', free | ⟨code, a, works, here⟩⟩ := h.taken id member
    · obtain rfl := Option.some.inj (hr.symm.trans hr')
      exact absurd free taken
    · have same := h.filed code a works.here
      exact ⟨a, show Works codes now a.code a from same.symm ▸ works, here⟩

/-- No two entries are for the same parcel. -/
theorem nodup_values (h : Matched codes group now l) : codes.values.Nodup := by
  have keys : codes.values.map Assignment.code = codes.keys := by
    simp only [Table.values, Table.keys, List.map_map]
    exact List.map_congr_left fun e he => h.filed e.1 e.2 (Table.mem_entries_iff.1 he)
  exact .of_map Assignment.code (keys ▸ codes.nodup)

theorem mem_working_iff (h : Matched codes group now l) :
    a ∈ working codes now ↔ a ∈ codes.values.filter fun a => a.active now := by
  rw [List.mem_filter, Assignment.active_iff, Table.values, List.mem_map]
  constructor
  · intro works
    exact ⟨⟨(a.code, a), Table.mem_entries_iff.2 works.here, rfl⟩, works.unused, works.lasts⟩
  · rintro ⟨⟨⟨code, a⟩, here, rfl⟩, unused, lasts⟩
    have here := Table.mem_entries_iff.1 here
    obtain rfl := h.filed code a here
    exact ⟨here, unused, lasts⟩

/-- **As many codes work as compartments are taken.** -/
theorem countP_active (h : Matched codes group now l) :
    codes.values.countP (fun a => a.active now) = (l.members group).length -
      (l.readMembers group fun _ r => r.statusAt now).count .available := by
  have taken_iff : ∀ id, ¬((l.resources.get? id).map fun r => r.statusAt now) = some .available ↔
      ∀ r, l.resources.get? id = some r → r.statusAt now ≠ .available := by
    intro id
    cases l.resources.get? id <;> simp
  -- the compartments of the codes that work, and those that are taken
  have places : ((codes.values.filter fun a => a.active now).map Assignment.compartment).Perm
      ((l.members group).filter fun id =>
        ¬((l.resources.get? id).map fun r => r.statusAt now) = some .available) := by
    refine (List.perm_ext_iff_of_nodup ?_ (h.nodup.filter _)).2 fun id => ?_
    · refine (h.nodup_values.filter _).map_on fun a ha a' ha' same => ?_
      exact h.bijOn.injOn (h.mem_working_iff.2 ha) (h.mem_working_iff.2 ha') same
    · rw [List.mem_map, List.mem_filter, decide_eq_true_eq, taken_iff]
      constructor
      · rintro ⟨a, ha, rfl⟩
        obtain ⟨member, r, hr, taken⟩ := h.bijOn.mapsTo (h.mem_working_iff.2 ha)
        refine ⟨member, fun r' hr' => ?_⟩
        obtain rfl := Option.some.inj (hr.symm.trans hr')
        exact taken
      · rintro ⟨member, taken⟩
        obtain ⟨r, hr, -⟩ := h.taken id member
        obtain ⟨a, works, rfl⟩ := h.bijOn.surjOn ⟨member, r, hr, taken r hr⟩
        exact ⟨a, h.mem_working_iff.1 works, rfl⟩
  have counted := places.length_eq
  have whole := List.length_eq_countP_add_countP
    (fun id => ((l.resources.get? id).map fun r => r.statusAt now) == some .available)
    (l := l.members group)
  rw [List.length_map, ← List.countP_eq_length_filter, ← List.countP_eq_length_filter] at counted
  rw [Ledger.readMembers, List.count_filterMap, counted, whole]
  simp

/-- The codes that work, counted on file. -/
theorem ncard_working (h : Matched codes group now l) :
    (working codes now).ncard = codes.values.countP fun a => a.active now := by
  have listed : working codes now = ((codes.values.filter fun a => a.active now).toFinset : Set _) := by
    ext a
    rw [h.mem_working_iff, List.coe_toFinset, Set.mem_ofPred_eq]
  rw [listed, Set.ncard_coe_finset, List.toFinset_card_of_nodup (h.nodup_values.filter _),
    List.countP_eq_length_filter]

end Matched

end Tenure
