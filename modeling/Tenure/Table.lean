/-!
# Tables

A finite map that keeps its entries in the order in which their keys were first
put in. No key has two entries: that is part of the type, so a listing of the
entries and a look-up never disagree (`mem_entries_iff`).

Each operation comes with one lemma that says what a look-up answers afterwards.
-/

namespace Tenure

universe u v

/-- A finite map with its entries in order of first insertion. -/
structure Table (κ : Type u) (α : Type v) where
  /-- the entries, the oldest key first -/
  entries : List (κ × α)
  /-- every key has one entry -/
  nodup : (entries.map Prod.fst).Nodup

namespace Table

variable {κ : Type u} {α : Type v} [DecidableEq κ]

/-- The table without entries. -/
protected def empty : Table κ α := ⟨[], List.nodup_nil⟩

instance : Inhabited (Table κ α) := ⟨Table.empty⟩

/-- The keys, in order of first insertion. -/
def keys (t : Table κ α) : List κ := t.entries.map Prod.fst

/-- The values, in the order of their keys. -/
def values (t : Table κ α) : List α := t.entries.map Prod.snd

/-- How many keys there are. -/
def size (t : Table κ α) : Nat := t.entries.length

/-- The value stored under a key. -/
def get? (t : Table κ α) (k : κ) : Option α :=
  (t.entries.find? fun e => e.1 = k).map Prod.snd

/-- Whether the key has an entry. -/
def contains (t : Table κ α) (k : κ) : Bool := t.entries.any fun e => e.1 = k

/-- The test for a key agrees with the list of keys. -/
theorem contains_iff {t : Table κ α} {k : κ} : t.contains k = true ↔ k ∈ t.keys := by
  simp [contains, keys]

/-- Changes the value under `k`, if there is one. -/
def modify (t : Table κ α) (k : κ) (f : α → α) : Table κ α where
  entries := t.entries.map fun e => if e.1 = k then (e.1, f e.2) else e
  nodup := by
    have h : (fun e : κ × α => (if e.1 = k then (e.1, f e.2) else e).1) = Prod.fst := by
      funext e
      split <;> rfl
    simpa [List.map_map, Function.comp_def, h] using t.nodup

/-- Puts `v` under `k`, in place of what was there; a new key comes last. -/
def insert (t : Table κ α) (k : κ) (v : α) : Table κ α :=
  if h : t.contains k = true then t.modify k fun _ => v
  else
    { entries := t.entries ++ [(k, v)]
      nodup := by
        have hk : k ∉ t.keys := fun hm => h (contains_iff.2 hm)
        rw [List.map_append, List.nodup_append]
        refine ⟨t.nodup, by simp, ?_⟩
        intro a ha b hb
        simp only [List.map_cons, List.map_nil, List.mem_singleton] at hb
        subst hb
        exact fun he => hk (he ▸ ha) }

/-- Takes `k` and its value out. -/
def erase (t : Table κ α) (k : κ) : Table κ α where
  entries := t.entries.filter fun e => e.1 ≠ k
  nodup := t.nodup.sublist (List.Sublist.map _ List.filter_sublist)

/-- Keeps the entries that pass a test. -/
def filter (t : Table κ α) (p : κ → α → Bool) : Table κ α where
  entries := t.entries.filter fun e => p e.1 e.2
  nodup := t.nodup.sublist (List.Sublist.map _ List.filter_sublist)

/-! ## Look-up after each operation -/

/-- Nothing is found in the empty table. -/
@[simp] theorem get?_empty (k : κ) : (Table.empty : Table κ α).get? k = none := rfl

/-- Nothing is found in a table without entries. -/
theorem get?_of_size_eq_zero {t : Table κ α} (h : t.size = 0) (k : κ) : t.get? k = none := by
  rw [get?, List.length_eq_zero_iff.1 h]
  rfl

/-- A listing of the entries and a look-up agree. -/
theorem mem_entries_iff {t : Table κ α} {k : κ} {v : α} :
    (k, v) ∈ t.entries ↔ t.get? k = some v := by
  obtain ⟨l, hl⟩ := t
  simp only [get?]
  induction l with
  | nil => simp
  | cons e l ih =>
    obtain ⟨k', v'⟩ := e
    simp only [List.map_cons, List.nodup_cons] at hl
    have ih := ih hl.2
    by_cases h : k' = k
    · subst h
      have hn : ∀ x, (k', x) ∉ l := fun x hx => hl.1 (List.mem_map.2 ⟨_, hx, rfl⟩)
      simp [hn, eq_comm]
    · have h' : ¬ k = k' := fun e => h e.symm
      simp [h, h', ih]

/-- A key is in the table exactly if something is found under it. -/
theorem contains_eq_isSome (t : Table κ α) (k : κ) : t.contains k = (t.get? k).isSome := by
  simp only [contains, get?, Option.isSome_map]
  rw [Bool.eq_iff_iff]
  simp [List.find?_isSome]

/-- A change shows under its key and nowhere else. -/
theorem get?_modify (t : Table κ α) (k k' : κ) (f : α → α) :
    (t.modify k f).get? k' = if k' = k then (t.get? k).map f else t.get? k' := by
  simp only [get?, modify, List.find?_map]
  have hp : ((fun e : κ × α => decide (e.1 = k')) ∘
      fun e : κ × α => if e.1 = k then (e.1, f e.2) else e) = fun e => decide (e.1 = k') := by
    funext e
    simp only [Function.comp_apply]
    split <;> rfl
  rw [hp]
  by_cases h : k' = k
  · subst h
    cases hf : t.entries.find? (fun e => decide (e.1 = k')) with
    | none => simp
    | some e =>
      have := List.find?_some hf
      simp only [decide_eq_true_eq] at this
      simp [this]
  · cases hf : t.entries.find? (fun e => decide (e.1 = k')) with
    | none => simp [h]
    | some e =>
      have := List.find?_some hf
      simp only [decide_eq_true_eq] at this
      simp [this, h]

/-- A change that leaves the value as it is changes nothing. -/
theorem modify_eq_self {t : Table κ α} {k : κ} {f : α → α} (h : ∀ v, t.get? k = some v → f v = v) :
    t.modify k f = t := by
  have same : (t.modify k f).entries = t.entries := by
    refine (List.map_congr_left fun e he => ?_).trans (List.map_id _)
    split
    · next here => exact congrArg (Prod.mk e.1) (h e.2 (here ▸ mem_entries_iff.1 he))
    · rfl
  cases t
  simpa only [modify, mk.injEq] using same

/-- Two changes under one key are one. -/
theorem modify_modify (t : Table κ α) (k : κ) (f g : α → α) :
    (t.modify k f).modify k g = t.modify k fun v => g (f v) := by
  simp only [modify, mk.injEq, List.map_map]
  refine List.map_congr_left fun e _ => ?_
  by_cases here : e.1 = k <;> simp [here]

/-- A change leaves the keys alone. -/
theorem keys_modify (t : Table κ α) (k : κ) (f : α → α) : (t.modify k f).keys = t.keys := by
  simp only [keys, modify, List.map_map]
  refine List.map_congr_left fun e _ => ?_
  simp only [Function.comp_apply]
  split <;> rfl

/-- An insertion leaves the keys alone, but for a new one, which comes last. -/
theorem keys_insert (t : Table κ α) (k : κ) (v : α) :
    (t.insert k v).keys = if k ∈ t.keys then t.keys else t.keys ++ [k] := by
  rw [insert]
  split
  · next known => rw [keys_modify, if_pos (contains_iff.1 known)]
  · next new =>
    rw [if_neg fun known => new (contains_iff.2 known)]
    exact List.map_append

/-- A removal takes the key out. -/
theorem keys_erase (t : Table κ α) (k : κ) : (t.erase k).keys = t.keys.filter (· ≠ k) := by
  rw [keys, keys, List.filter_map]
  rfl

omit [DecidableEq κ] in
/-- There are as many entries as keys. -/
theorem size_eq_length_keys (t : Table κ α) : t.size = t.keys.length := (List.length_map ..).symm

/-- The keys are those under which something is found. -/
theorem mem_keys_iff {t : Table κ α} {k : κ} : k ∈ t.keys ↔ (t.get? k).isSome = true := by
  rw [← contains_eq_isSome, contains_iff]

/-- **Two tables are the same** if they have the same keys in the same order, and the same is
found under each of them. -/
theorem ext_get? {t t' : Table κ α} (keys : t.keys = t'.keys) (found : ∀ k, t.get? k = t'.get? k) :
    t = t' := by
  have key : ∀ i : Nat, (t.entries[i]?).map Prod.fst = (t'.entries[i]?).map Prod.fst := by
    intro i
    simpa only [Table.keys, List.getElem?_map] using congrArg (fun ks => ks[i]?) keys
  have same : t.entries = t'.entries := by
    refine List.ext_getElem? fun i => ?_
    have key := key i
    cases he : t.entries[i]? with
    | none =>
      rw [he, Option.map_none, eq_comm, Option.map_eq_none_iff] at key
      exact key.symm
    | some e =>
      rw [he, Option.map_some, eq_comm, Option.map_eq_some_iff] at key
      obtain ⟨e', he', key⟩ := key
      have here : t.get? e.1 = some e.2 := mem_entries_iff.1 (List.mem_of_getElem? he)
      have there : t'.get? e'.1 = some e'.2 := mem_entries_iff.1 (List.mem_of_getElem? he')
      rw [key, ← found, here] at there
      rw [he', Prod.ext key (Option.some.inj there).symm]
  cases t
  cases t'
  cases same
  rfl

/-- **An insertion shows under its key and nowhere else.** -/
theorem get?_insert (t : Table κ α) (k k' : κ) (v : α) :
    (t.insert k v).get? k' = if k' = k then some v else t.get? k' := by
  simp only [insert]
  split
  · next h =>
    rw [contains_eq_isSome] at h
    obtain ⟨w, hw⟩ := Option.isSome_iff_exists.1 h
    rw [get?_modify, hw]
    rfl
  · next h =>
    have hn : t.get? k = none := by
      rw [contains_eq_isSome] at h
      simpa using h
    simp only [get?, List.find?_append]
    by_cases hk : k' = k
    · subst hk
      simp only [get?, Option.map_eq_none_iff] at hn
      simp [hn]
    · have hk' : ¬ k = k' := fun e => hk e.symm
      cases t.entries.find? (fun e => decide (e.1 = k')) <;> simp [hk, hk']

/-- **A removal shows under its key and nowhere else.** -/
theorem get?_erase (t : Table κ α) (k k' : κ) :
    (t.erase k).get? k' = if k' = k then none else t.get? k' := by
  simp only [get?, erase, List.find?_filter]
  by_cases h : k' = k
  · subst h
    simp [List.find?_eq_none]
  · have hf : (fun e : κ × α => !decide (e.1 = k) && decide (e.1 = k'))
        = fun e => decide (e.1 = k') := by
      funext e
      by_cases he : e.1 = k'
      · simp [he, h]
      · simp [he]
    simp [h, hf]

/-- A filtered table answers what passes the test. -/
theorem get?_filter (t : Table κ α) (p : κ → α → Bool) (k : κ) :
    (t.filter p).get? k = (t.get? k).filter (p k) := by
  have hmem : ∀ v, (k, v) ∈ (t.filter p).entries ↔ t.get? k = some v ∧ p k v = true := by
    intro v
    rw [← mem_entries_iff]
    exact List.mem_filter
  cases hv : t.get? k with
  | none =>
    refine Option.eq_none_iff_forall_not_mem.2 fun v hm => ?_
    have := (hmem v).1 (mem_entries_iff.2 hm)
    rw [hv] at this
    cases this.1
  | some v =>
    by_cases hp : p k v = true
    · rw [mem_entries_iff.1 ((hmem v).2 ⟨hv, hp⟩), Option.filter, if_pos hp]
    · refine (Option.eq_none_iff_forall_not_mem.2 fun w hm => ?_).trans
        (by rw [Option.filter, if_neg hp])
      have := (hmem w).1 (mem_entries_iff.2 hm)
      rw [hv] at this
      obtain ⟨h₁, h₂⟩ := this
      cases h₁
      exact hp h₂

end Table

end Tenure
