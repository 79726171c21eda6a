import Tenure.House.Locker
import Tenure.Proofs.Service.Basic

/-!
# What calls in a house may count on

A house is a ledger with things around it, and calls on the ledger are calls in the house
(`House.onLedger`). They keep to one conduct (`House.conduct`): that of the ledger, and beside
it a code that was handed out stays with its parcel. Whether the parcel was picked up is all
that may change.

What a call on the ledger promises there it promises in the house, wherever in a longer call it
comes (`House.meets_onLedger`).
-/

namespace Tenure

/-! ## Assignments as they were handed out -/

/-- An assignment as it was handed out. -/
def Assignment.issued (a : Assignment) : Assignment := { a with pickedUp := false }

theorem Assignment.issued_of_unused {a : Assignment} (unused : a.pickedUp = false) :
    a.issued = a := by
  cases a
  cases unused
  rfl

namespace House

variable {α : Type} {h h' h'' h₀ : House} {held held' : List Key} {m : Moment}

/-! ## Assignments -/

/-- A change of one bank is none of the codes of the others. -/
theorem assignment?_changeBank (h : House) (number bank : Nat) (f : Bank → Bank) (code : String) :
    (h.changeBank number f).assignment? bank code =
      if number = bank then h.banks[bank]?.bind fun b => (f b).assignments.get? code
      else h.assignment? bank code := by
  simp only [assignment?, changeBank, List.getElem?_modify]
  split
  · cases h.banks[bank]? <;> rfl
  · simp

/-- **Marking** changes one assignment, in whether its parcel was picked up. -/
theorem assignment?_mark (h : House) (number : Nat) (code : String) (pickedUp : Bool) (bank : Nat)
    (code' : String) :
    (h.mark number code pickedUp).assignment? bank code' =
      if number = bank ∧ code' = code then
        (h.assignment? number code).map fun a => { a with pickedUp := pickedUp }
      else h.assignment? bank code' := by
  rw [mark, assignment?_changeBank]
  by_cases hb : number = bank
  · subst hb
    by_cases hc : code' = code
    · subst hc
      simp only [assignment?, and_self, if_true, Table.get?_modify]
      cases h.banks[number]? <;> rfl
    · simp only [assignment?, hc, and_false, if_true, if_false, Table.get?_modify]
  · simp [hb]

/-- The codes on file are those that a parcel is to be had for. -/
theorem mem_codes_iff {number : Nat} {code : String} :
    code ∈ h.codes number ↔ ∃ a, h.assignment? number code = some a := by
  rw [codes, assignment?]
  cases h.banks[number]? with
  | none => simp
  | some b =>
    rw [Option.map_some, Option.getD_some, ← Table.contains_iff, Table.contains_eq_isSome,
      Option.isSome_iff_exists]
    rfl

/-- **The code that is handed out is not on file**: codes are drawn until one is found that is
not. -/
theorem assignment?_of_assign (h : House) (now : Int) (number : Nat) (size : Size) (hold : Hold) :
    h.assignment? number (h.assign now number size hold).1.code = none := by
  have vacant : (h.assign now number size hold).1.code ∉ h.codes number :=
    h.ledger.supply.drawCode_not_mem now (h.codes number)
  rw [mem_codes_iff] at vacant
  exact Option.eq_none_iff_forall_ne_some.2 fun a ha => vacant ⟨a, ha⟩

/-- **Handing out a code** adds one assignment, if there is such a bank. -/
theorem assignment?_assign (h : House) (now : Int) (number : Nat) (size : Size) (hold : Hold)
    (bank : Nat) (code : String) :
    (h.assign now number size hold).2.assignment? bank code =
      if number = bank ∧ code = (h.assign now number size hold).1.code then
        h.banks[number]?.map fun _ => (h.assign now number size hold).1
      else h.assignment? bank code := by
  refine (assignment?_changeBank ..).trans ?_
  by_cases hb : number = bank
  · subst hb
    by_cases hc : code = (h.assign now number size hold).1.code
    · subst hc
      simp only [and_self, if_true]
      cases h.banks[number]? with
      | none => rfl
      | some b => exact (Table.get?_insert ..).trans (if_pos rfl)
    · simp only [hc, and_false, if_true, if_false]
      change h.banks[number]?.bind _ = h.banks[number]?.bind _
      cases h.banks[number]? with
      | none => rfl
      | some b => exact (Table.get?_insert ..).trans (if_neg hc)
  · rw [if_neg hb, if_neg fun here => hb here.1]
    rfl

theorem length_changeBank (h : House) (number : Nat) (f : Bank → Bank) :
    (h.changeBank number f).banks.length = h.banks.length := List.length_modify ..

/-! ## The rules -/

/-- What others may do while a party waits that holds `held`. -/
structure Rely (held : List Key) (h h' : House) : Prop where
  /-- what they may do to the ledger -/
  ledger : h.ledger.Rely held h'.ledger
  /-- no bank comes or goes -/
  banks : h'.banks.length = h.banks.length
  /-- a code stays with its parcel -/
  codes : ∀ bank code a, h.assignment? bank code = some a →
    ∃ a', h'.assignment? bank code = some a' ∧ a'.issued = a.issued

theorem Rely.refl (held : List Key) (h : House) : Rely held h h :=
  ⟨.refl held h.ledger, rfl, fun _ _ a ha => ⟨a, ha, rfl⟩⟩

theorem Rely.trans (r : Rely held h h') (r' : Rely held h' h'') : Rely held h h'' := by
  refine ⟨r.ledger.trans r'.ledger, r'.banks.trans r.banks, fun bank code a ha => ?_⟩
  obtain ⟨a', ha', same⟩ := r.codes bank code a ha
  obtain ⟨a'', ha'', same'⟩ := r'.codes bank code a' ha'
  exact ⟨a'', ha'', same'.trans same⟩

/-- The rules for all calls in a house. -/
def conduct : Conduct House where
  inv := fun h => h.ledger.Orderly
  rely := Rely
  rely_refl := Rely.refl
  rely_trans := Rely.trans

/-- No code was handed out, and each stays with its parcel. -/
structure SameCodes (h h' : House) : Prop where
  /-- no bank comes or goes -/
  banks : h'.banks.length = h.banks.length
  /-- the assignments are the same, but for whether the parcel was picked up -/
  found : ∀ bank code, (h'.assignment? bank code).map Assignment.issued =
    (h.assignment? bank code).map Assignment.issued

theorem SameCodes.refl (h : House) : SameCodes h h := ⟨rfl, fun _ _ => rfl⟩

theorem SameCodes.trans (same : SameCodes h h') (same' : SameCodes h' h'') : SameCodes h h'' :=
  ⟨same'.banks.trans same.banks, fun bank code => (same'.found bank code).trans (same.found bank code)⟩

theorem SameCodes.of_banks (same : h'.banks = h.banks) : SameCodes h h' :=
  ⟨congrArg List.length same, fun bank code => by rw [assignment?, assignment?, same]⟩

/-- A code that there is was there before, for the same parcel. -/
theorem SameCodes.before (same : SameCodes h h') {bank : Nat} {code : String} {a' : Assignment}
    (here : (h'.assignment? bank code).map Assignment.issued = some a') :
    ∃ a, h.assignment? bank code = some a ∧ a.issued = a' :=
  Option.map_eq_some_iff.1 ((same.found bank code).symm.trans here)

/-- Marking a code used leaves it the code that it is. -/
theorem sameCodes_mark (h : House) (number : Nat) (code : String) (pickedUp : Bool) :
    SameCodes h (h.mark number code pickedUp) := by
  refine ⟨length_changeBank .., fun bank code' => ?_⟩
  rw [assignment?_mark]
  split
  · next here =>
    obtain ⟨rfl, rfl⟩ := here
    cases h.assignment? number code' <;> rfl
  · rfl

/-- Whatever is permitted in the ledger is permitted in the house. -/
theorem SameCodes.permits (same : SameCodes h h')
    (permitted : Ledger.conduct.Permits held h.ledger h'.ledger) : conduct.Permits held h h' := by
  refine ⟨permitted.1, fun held' apart =>
    ⟨permitted.2 held' apart, same.banks, fun bank code a ha => ?_⟩⟩
  exact Option.map_eq_some_iff.1 ((same.found bank code).trans (congrArg _ ha))

/-- Looking for a code is permitted in the ledger, and that may be counted. -/
theorem permits_drawCode {l : Ledger} (ord : l.Orderly) (now : Int) (taken : List String)
    (x : Metric) :
    Ledger.conduct.Permits held l ((l.drawCode now taken).2.count x) :=
  ⟨⟨ord.filed, fun id b hb => (ord.fresh id b hb).drawCode now taken, ord.once⟩, fun _ _ =>
    ⟨⟨rfl, fun _ => rfl⟩, fun _ b hb => ⟨b.status, hb, fun _ => rfl⟩⟩⟩

/-- **Handing out a code** is permitted, because nothing is on file under it. -/
theorem permits_assign (ord : h.ledger.Orderly) (now : Int) (number : Nat) (size : Size)
    (hold : Hold) : conduct.Permits held h (h.assign now number size hold).2 := by
  have drawn : Ledger.conduct.Permits held h.ledger (h.assign now number size hold).2.ledger :=
    permits_drawCode ord now (h.codes number) _
  refine ⟨drawn.1, fun held' apart =>
    ⟨drawn.2 held' apart, length_changeBank .., fun bank code a ha => ⟨a, ?_, rfl⟩⟩⟩
  rw [assignment?_assign, if_neg]
  · exact ha
  · rintro ⟨rfl, rfl⟩
    cases (h.assignment?_of_assign now number size hold).symm.trans ha

/-- Whatever others may do in a house they may do to its ledger. -/
theorem resumes_ledger {m' : Moment} {h₀' : House} (l₀ : Ledger)
    (r : conduct.Resumes held m h₀ h m' h₀' h') :
    (m' = m ∧ h₀' = h₀ ∧ h' = h) ∨
    (h₀' = h' ∧ Rely held h h' ∧ h'.ledger.Orderly ∧
      Ledger.conduct.Resumes held m l₀ h.ledger m' h'.ledger h'.ledger) := by
  cases r with
  | atOnce => exact .inl ⟨rfl, rfl, rfl⟩
  | later time others inv => exact .inr ⟨rfl, others, inv, .later time others.ledger inv⟩

/-! ## Calls on the ledger -/

/-- What is promised of a stretch at the moment `m` on the ledger, which began with `l₀`, covers
what is promised of it in the house, in which it began with `h₀` and came to `h`. `J` is known all
the time. -/
structure Covers (J : House → Prop) (W : Moment → Ledger → Ledger → Prop)
    (ret : List Key → Moment → Ledger → Ledger → α → Prop) (W' : Moment → House → House → Prop)
    (ret' : List Key → Moment → House → House → α → Prop) (m : Moment) (l₀ : Ledger)
    (h₀ h : House) : Prop where
  /-- if it ends in a wait -/
  waits : ∀ l, W m l₀ l → W' m h₀ { h with ledger := l }
  /-- if the call on the ledger is answered -/
  answers : ∀ held l a, l.Orderly → J { h with ledger := l } →
    ret held m l₀ l a → ret' held m h₀ { h with ledger := l } a

variable {J : House → Prop} {W : Moment → Ledger → Ledger → Prop}
  {ret : List Key → Moment → Ledger → Ledger → α → Prop} {W' : Moment → House → House → Prop}
  {ret' : List Key → Moment → House → House → α → Prop} {l₀ : Ledger}

/-- **A call on the ledger keeps its promises in the house.** -/
theorem meets_onLedger {c : Call Ledger α} (meets : c.Meets Ledger.conduct W ret held m l₀ h.ledger)
    (stable : ∀ held h h', J h → Rely held h h' → J h') (ord : h.ledger.Orderly) (knows : J h)
    (first : Covers J W ret W' ret' m l₀ h₀ h)
    (later : ∀ m h₁, J h₁ → Covers J W ret W' ret' m h₁.ledger h₁ h₁) :
    (onLedger c).Meets conduct W' ret' held m h₀ h := by
  -- a change of the ledger, after which the stretch goes on
  have saved : ∀ {held m l₀ h₀} {h : House} {l : Ledger}, h.ledger.Orderly → J h →
      Covers J W ret W' ret' m l₀ h₀ h → Ledger.conduct.Permits held h.ledger l →
      conduct.Permits held h { h with ledger := l } ∧ J { h with ledger := l } ∧
        Covers J W ret W' ret' m l₀ h₀ { h with ledger := l } := by
    intro held m l₀ h₀ h l ord knows covers permitted
    have codes : SameCodes h { h with ledger := l } := .of_banks rfl
    have permitted' := codes.permits permitted
    exact ⟨permitted', stable [] _ _ knows (permitted'.2 [] fun _ _ => List.not_mem_nil),
      ⟨covers.waits, covers.answers⟩⟩
  induction c generalizing held m l₀ h₀ h with
  | done a => exact first.answers held h.ledger a ord knows meets
  | look k ih => exact ih m h.ledger meets ord knows first
  | save l k ih =>
    obtain ⟨permitted, knows', covers⟩ := saved ord knows first meets.1
    exact ⟨permitted, ih (h := { h with ledger := l }) meets.2 permitted.1 knows' covers⟩
  | acquire key mode patience k ih =>
    refine ⟨first.waits h.ledger meets.1, fun m' h₀' h' r => ?_⟩
    obtain ⟨rfl, rfl, rfl⟩ | ⟨rfl, others, ord', r'⟩ := resumes_ledger l₀ r
    · obtain ⟨got, late⟩ := meets.2 m' l₀ h'.ledger .atOnce
      exact ⟨ih true got ord knows first, fun hp => ih false (late hp) ord knows first⟩
    · obtain ⟨got, late⟩ := meets.2 m' _ _ r'
      have knows' := stable held _ _ knows others
      exact ⟨ih true got ord' knows' (later m' h₀' knows'),
        fun hp => ih false (late hp) ord' knows' (later m' h₀' knows')⟩
  | release key k ih => exact ih meets ord knows first
  | probe key mode k ih => exact fun b => ih b (meets b) ord knows first
  | pause due sign k ih =>
    refine ⟨first.waits h.ledger meets.1, fun m' h₀' h' r => ?_⟩
    obtain ⟨rfl, rfl, rfl⟩ | ⟨rfl, others, ord', r'⟩ := resumes_ledger l₀ r
    · obtain ⟨on, taken⟩ := meets.2 m' l₀ h'.ledger .atOnce
      refine ⟨ih on ord knows first, fun h'' sign => ?_⟩
      obtain ⟨l, hl, rfl⟩ := Option.map_eq_some_iff.1 sign
      obtain ⟨permitted, onward⟩ := taken l hl
      obtain ⟨permitted, knows', covers⟩ := saved ord knows first permitted
      exact ⟨permitted, ih (h := { h' with ledger := l }) onward permitted.1 knows' covers⟩
    · obtain ⟨on, taken⟩ := meets.2 m' _ _ r'
      have knows' := stable held _ _ knows others
      refine ⟨ih on ord' knows' (later m' h₀' knows'), fun h'' sign => ?_⟩
      obtain ⟨l, hl, rfl⟩ := Option.map_eq_some_iff.1 sign
      obtain ⟨permitted, onward⟩ := taken l hl
      obtain ⟨permitted, knows'', covers⟩ := saved ord' knows' (later m' h₀' knows') permitted
      exact ⟨permitted, ih (h := { h₀' with ledger := l }) onward permitted.1 knows'' covers⟩

/-- A call on the ledger in a stretch of which nothing but `D` is known. -/
theorem meets_did {D : Moment → House → House → Prop} {c : Call Ledger α}
    (meets : c.Meets Ledger.conduct W ret held m h.ledger h.ledger) (ord : h.ledger.Orderly)
    (did : D m h₀ h) (refl : ∀ m h, D m h h)
    (waits : ∀ {m h₀ h l}, D m h₀ h → W m h.ledger l → W' m h₀ { h with ledger := l })
    (answers : ∀ {held m h₀ h l a}, l.Orderly → D m h₀ h →
      ret held m h.ledger l a → ret' held m h₀ { h with ledger := l } a) :
    (onLedger c).Meets conduct W' ret' held m h₀ h := by
  refine meets_onLedger (J := fun _ => True) meets (fun _ _ _ _ _ => trivial) ord trivial ?_ ?_
  · exact ⟨fun l => waits did, fun held l a ord _ => answers ord did⟩
  · exact fun m h₁ _ => ⟨fun l => waits (refl m h₁), fun held l a ord _ => answers ord (refl m h₁)⟩

/-- Looks at the ledger are looks at the house. -/
theorem idle_onLedger {c : Call Ledger α} (h : c.Idle) : (onLedger c).Idle := by
  induction c with
  | done a => trivial
  | look k ih => exact fun m h' => ih m h'.ledger (h m h'.ledger)
  | save l k ih => exact h.elim
  | acquire key mode patience k ih => exact fun b => ih b (h b)
  | release key k ih => exact ih h
  | probe key mode k ih => exact fun b => ih b (h b)
  | pause due sign k ih =>
    refine ⟨fun h₁ h₂ signed => ?_, ih h.2⟩
    obtain ⟨l, hl, rfl⟩ := Option.map_eq_some_iff.1 signed
    obtain rfl := h.1 _ _ hl
    rfl

end House

end Tenure
