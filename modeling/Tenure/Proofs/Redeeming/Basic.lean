import Tenure.Proofs.Visitors

/-!
# What visits do to codes

Whether a code is used up is changed by pickups only, and by each of them twice at most: it uses
the code up, and takes that back if the compartment cannot be freed. If it has to wait in
between, that is at one place, for the lock of the compartment (`House.PastCheck`).

All other visits leave the banks as they are, but for a deposit, which files a code that is new
(`House.Report.Files`).
-/

namespace Tenure

/-- What a call that gives up a hold goes on with once it is clear whether it has the lock. -/
def Ledger.givingUp (s : CoordinatorSettings) (id : Id) (holder : String) (got : Bool) :
    Call Ledger (Except CallError Unit) :=
  .look fun _ l => .save (l.count .lockWait) <|
    if got then
      .look fun m l => .save (l.cancel s.policy m.stamp id holder).2 <|
        .release (.resource id) (.done (l.cancel s.policy m.stamp id holder).1)
    else .done (.error (.lockTimeout id))

namespace House

variable {s : CoordinatorSettings} {m : Moment} {h h' h₀ : House} {held : List Key}
  {number number' : Nat} {code code' : String} {a : Assignment} {owner : Owner} {ls : Locks}

/-! ## Used codes -/

theorem assignment?_congr (same : h'.banks = h.banks) (number : Nat) (code : String) :
    h'.assignment? number code = h.assignment? number code := by
  rw [assignment?, assignment?, same]

theorem mark_congr (same : h'.banks = h.banks) (number : Nat) (code : String) (pickedUp : Bool) :
    (h'.mark number code pickedUp).banks = (h.mark number code pickedUp).banks := by
  simp only [mark, changeBank, same]

/-- One if a code is used up, else none. -/
def used (h : House) (number : Nat) (code : String) : Nat :=
  if (h.assignment? number code).any Assignment.pickedUp then 1 else 0

theorem used_congr (same : h'.banks = h.banks) (number : Nat) (code : String) :
    h'.used number code = h.used number code := by
  rw [used, used, assignment?_congr same]

theorem used_le_one (h : House) (number : Nat) (code : String) : h.used number code ≤ 1 := by
  rw [used]
  split <;> decide

theorem used_of_assignment (here : h.assignment? number code = some a) :
    h.used number code = if a.pickedUp then 1 else 0 := by
  rw [used, here, Option.any_some]

/-- Marking shows at one code. -/
theorem used_mark (here : h.assignment? number code = some a) (pickedUp : Bool) (number' : Nat)
    (code' : String) :
    (h.mark number code pickedUp).used number' code' =
      if number = number' ∧ code = code' then if pickedUp then 1 else 0
      else h.used number' code' := by
  have shows := assignment?_mark h number code pickedUp number' code'
  by_cases same : number = number' ∧ code = code'
  · obtain ⟨rfl, rfl⟩ := same
    rw [if_pos ⟨rfl, rfl⟩, here, Option.map_some] at shows
    rw [used_of_assignment shows, if_pos (⟨rfl, rfl⟩ : number = number ∧ code = code)]
  · rw [if_neg fun here => same ⟨here.1, here.2.symm⟩] at shows
    rw [used, shows, if_neg same, used]

/-! ## Codes on file -/

/-- One if a code is on file, else none. -/
def filed (h : House) (number : Nat) (code : String) : Nat :=
  if (h.assignment? number code).isSome then 1 else 0

/-- If no code was handed out the same codes are on file. -/
theorem SameCodes.filed_eq (same : SameCodes h h') (number : Nat) (code : String) :
    h'.filed number code = h.filed number code := by
  have found := congrArg Option.isSome (same.found number code)
  rw [Option.isSome_map, Option.isSome_map] at found
  rw [filed, filed, found]

/-! ## A pickup, place by place -/

/-- What follows once it is known whether the compartment could be freed. -/
def concluding (number : Nat) (code : String) (a : Assignment) (x : Except CallError Unit) :
    Call House Report :=
  (vacated number code a x).bind fun x => .done (.result (.pickup number code) (.parcel x))

/-- What follows once it is clear whether it has the lock of the compartment. -/
def freeing (s : CoordinatorSettings) (number : Nat) (code : String) (a : Assignment) (got : Bool) :
    Call House Report :=
  (onLedger (Ledger.givingUp s a.compartment a.parcel got)).bind (concluding number code a)

/-- What follows once the code is used up. -/
def vacating (s : CoordinatorSettings) (number : Nat) (code : String) (a : Assignment) :
    Call House Report :=
  (vacate s number code a).bind fun x => .done (.result (.pickup number code) (.parcel x))

theorem vacating_eq (s : CoordinatorSettings) (number : Nat) (code : String) (a : Assignment) :
    vacating s number code a = .look fun _ h =>
      if h.ledger.resources.contains a.compartment then
        .look fun m _ => .acquire (.resource a.compartment) .exclusive
          (some (m.elapsed + s.lockWait)) (freeing s number code a)
      else concluding number code a (.error (.notFound a.compartment)) := by
  rw [vacating, vacate_eq, Call.bind_assoc]
  refine congrArg Call.look (funext fun _ => funext fun h => ?_)
  change Call.bind (Call.within _ _
    (if (!h.ledger.resources.contains a.compartment) = true then _ else _)) _ = _
  cases h.ledger.resources.contains a.compartment with
  | false => rfl
  | true =>
    refine congrArg Call.look (funext fun m => funext fun _ => ?_)
    refine congrArg (Call.acquire _ _ _) (funext fun got => ?_)
    cases got <;> rfl

theorem visit_pickup_eq (s : CoordinatorSettings) (number : Nat) (code : String) :
    (Act.pickup number code).visit s = .look fun m h =>
      .save (h.redeem m.stamp number code).2 <|
        match (h.redeem m.stamp number code).1 with
        | .error e => .done (.result (.pickup number code) (.parcel (.error e)))
        | .ok a => vacating s number code a := by
  refine congrArg Call.look (funext fun m => funext fun h => congrArg (Call.save _) ?_)
  cases (h.redeem m.stamp number code).1 with
  | error e => rfl
  | ok a => exact Call.bind_assoc ..

/-- A pickup is past the check of its code, and waits for the lock of the compartment. -/
def PastCheck (s : CoordinatorSettings) (number : Nat) (code : String) (w : Wait House Report) :
    Prop :=
  ∃ a due, w = .lock (.resource a.compartment) .exclusive (some due) (freeing s number code a)

/-- If the lock does not come, that is the answer. -/
theorem run_late (s : CoordinatorSettings) (number : Nat) (code : String) (a : Assignment) :
    ((freeing s number code a false).run owner m h ls).1 =
      .returned (.result (.pickup number code)
        (.parcel (.error (.call (.lockTimeout a.compartment))))) := rfl

/-- Nobody is past the check of two codes. -/
theorem PastCheck.unique {w : Wait House Report} (past : PastCheck s number code w)
    (past' : PastCheck s number' code' w) (h : House) : number = number' ∧ code = code' := by
  obtain ⟨a, due, rfl⟩ := past
  obtain ⟨a', due', same⟩ := past'
  injection same with _ _ _ same
  have late : ((freeing s number code a false).run 0 ⟨0, 0⟩ h .empty).1 = _ :=
    run_late s number code a
  rw [same, run_late] at late
  injection late with late
  injection late with act
  injection act with number code
  exact ⟨number.symm, code.symm⟩

/-- How a stretch ends of a pickup that has used up its code. -/
inductive Frees (s : CoordinatorSettings) (number : Nat) (code : String) (h : House) :
    Stop House Report → House → Prop where
  /-- it has to wait for the lock -/
  | waits {h' : House} {w : Wait House Report} (past : PastCheck s number code w)
    (same : h'.banks = h.banks) : Frees s number code h (.waiting w) h'
  /-- the code opens -/
  | opens {h' : House} (a : Assignment) (same : h'.banks = h.banks) :
    Frees s number code h (.returned (.result (.pickup number code) (.parcel (.ok a)))) h'
  /-- it does not, and is unused again -/
  | fails {h' : House} (e : LockerError) (back : h'.banks = (h.mark number code false).banks) :
    Frees s number code h (.returned (.result (.pickup number code) (.parcel (.error e)))) h'

/-- Either way no code is handed out. -/
theorem Frees.sameCodes {stop : Stop House Report} (frees : Frees s number code h stop h') :
    SameCodes h h' := by
  cases frees with
  | waits past same => exact .of_banks same
  | opens a same => exact .of_banks same
  | fails e back => exact (sameCodes_mark h number code false).trans (.of_banks back)

theorem frees_concluding {h₁ : House} (same : h₁.banks = h.banks) (x : Except CallError Unit) :
    Frees s number code h ((concluding number code a x).run owner m h₁ ls).1
      ((concluding number code a x).run owner m h₁ ls).2.1 := by
  cases x with
  | ok x => exact .opens a same
  | error e => exact .fails _ (mark_congr same number code false)

/-- Once it is clear whether it has the lock a pickup comes to its end. -/
theorem frees_freeing (got : Bool) :
    Frees s number code h ((freeing s number code a got).run owner m h ls).1
      ((freeing s number code a got).run owner m h ls).2.1 := by
  have concludes : ∃ l x ls', (freeing s number code a got).run owner m h ls =
      (concluding number code a x).run owner m { h with ledger := l } ls' := by
    cases got <;> exact ⟨_, _, _, rfl⟩
  obtain ⟨l, x, ls', run⟩ := concludes
  rw [run]
  have same : ({ h with ledger := l } : House).banks = h.banks := rfl
  exact frees_concluding same x

/-- **After the check** a pickup waits for the lock or comes to its end. -/
theorem frees_vacating (a : Assignment) :
    Frees s number code h ((vacating s number code a).run owner m h ls).1
      ((vacating s number code a).run owner m h ls).2.1 := by
  rw [vacating_eq]
  simp only [Call.run]
  split
  · simp only [Call.run]
    split
    · exact frees_freeing true
    · split
      · exact frees_freeing false
      · exact .waits ⟨a, _, rfl⟩ rfl
  · exact frees_concluding rfl _

/-- **A pickup** is refused at once, or uses up a code that was unused. -/
theorem run_pickup (s : CoordinatorSettings) (number : Nat) (code : String) (owner : Owner)
    (m : Moment) (h : House) (ls : Locks) :
    (∃ e, ((Act.pickup number code).visit s).run owner m h ls =
      (.returned (.result (.pickup number code) (.parcel (.error e))), h, ls)) ∨
    ∃ a, h.assignment? number code = some a ∧ a.pickedUp = false ∧
      Frees s number code (h.mark number code true)
        (((Act.pickup number code).visit s).run owner m h ls).1
        (((Act.pickup number code).visit s).run owner m h ls).2.1 := by
  rw [visit_pickup_eq]
  simp only [Call.run]
  rcases h.redeem_cases m.stamp number code with
    ⟨missing, e⟩ | ⟨a, ha, ⟨used, e⟩ | ⟨unused, e⟩ | ⟨unused, e⟩⟩ <;> rw [e]
  · exact .inl ⟨_, rfl⟩
  · exact .inl ⟨_, rfl⟩
  · exact .inl ⟨_, rfl⟩
  · exact .inr ⟨a, ha, unused, frees_vacating _⟩

/-! ## Other visits -/

namespace Report

/-- The code that was handed out, and its bank. -/
def issued? : Report → Option (Nat × String)
  | .result (.deposit number ..) (.parcel (.ok a)) => some (number, a.code)
  | _ => none

/-- The code that has opened, and its bank. -/
def opened? : Report → Option (Nat × String)
  | .result (.pickup number code) (.parcel (.ok _)) => some (number, code)
  | _ => none

/-- What becomes of the codes of a house in the stretch in which a visit other than a pickup is
answered. -/
inductive Files (h h' : House) : Report → Prop where
  /-- one is handed out that is not on file, and filed if there is such a bank -/
  | issues {number : Nat} {bank : Bank} {parcel : String} {size : Size} {a : Assignment}
    (banks : h'.banks.length = h.banks.length) (new : h.assignment? number a.code = none)
    (unused : a.pickedUp = false)
    (filed : ∀ number' code', h'.assignment? number' code' =
      if number = number' ∧ code' = a.code then h.banks[number]?.map fun _ => a
      else h.assignment? number' code') :
    Files h h' (.result (.deposit number bank parcel size) (.parcel (.ok a)))
  /-- they stay as they are -/
  | same {report : Report} (same : h'.banks = h.banks) (none : report.issued? = none)
    (not : ∀ number code x, report ≠ .result (.pickup number code) (.parcel x)) :
    Files h h' report

/-- Nothing is opened by that. -/
theorem Files.opened?_eq {report : Report} (files : report.Files h h') : report.opened? = none := by
  cases files with
  | issues => rfl
  | same _ _ not =>
    unfold opened?
    split
    · next number code a _ => exact absurd rfl (not number code (.ok a))
    · rfl

/-- That is not the answer to a pickup. -/
theorem Files.not_pickup {x : Except LockerError Assignment} :
    ¬ Files h h' (.result (.pickup number code) (.parcel x)) := by
  intro files
  cases files with
  | same _ _ not => exact not number code x rfl

/-- In a bank that there is the codes on file are those that were handed out. -/
theorem Files.filed_eq {report : Report} (files : report.Files h h') {number' : Nat}
    (known : number' < h.banks.length) (code' : String) :
    (if report.issued? = some (number', code') then 1 else 0) + h.filed number' code' =
      h'.filed number' code' := by
  cases files with
  | same same none =>
    rw [none, if_neg nofun, Nat.zero_add, House.filed, House.filed, assignment?_congr same]
  | @issues number bank _ _ a _ new unused filed =>
    rw [House.filed, House.filed, filed]
    simp only [issued?, Option.some.injEq, Prod.mk.injEq]
    by_cases here : number = number' ∧ code' = a.code
    · obtain ⟨rfl, rfl⟩ := here
      rw [new, List.getElem?_eq_getElem known]
      simp
    · rw [if_neg here, if_neg fun same => here ⟨same.1, same.2.symm⟩, Nat.zero_add]

/-- A new code is not a used one. -/
theorem Files.used_eq {report : Report} (files : report.Files h h') (number' : Nat)
    (code' : String) : h'.used number' code' = h.used number' code' := by
  cases files with
  | same same => exact used_congr same number' code'
  | @issues number bank _ _ a _ new unused filed =>
    rw [used, used, filed]
    by_cases here : number = number' ∧ code' = a.code
    · obtain ⟨rfl, rfl⟩ := here
      rw [if_pos (⟨rfl, rfl⟩ : number = number ∧ a.code = a.code), new]
      cases h.banks[number]? with
      | none => rfl
      | some b => simp [unused]
    · rw [if_neg here]

end Report

/-- The banks are left as they are. -/
abbrev SameBanks (_ : Moment) (h h' : House) : Prop := h'.banks = h.banks

/-- **A deposit** files one new code at most. -/
theorem files_depositInto (s : CoordinatorSettings) (number : Nat) (bank bank' : Bank)
    (parcel : String) (size size' : Size) (places : List (Id × Size)) (ord : h.ledger.Orderly)
    (banks : h.banks = h₀.banks) :
    (depositInto s number bank parcel size places).Meets conduct SameBanks
      (fun _ _ h₀ h x => Report.Files h₀ h (.result (.deposit number bank' parcel size') (.parcel x)))
      held m h₀ h := by
  induction places generalizing held m h₀ h with
  | nil =>
    have quiet := h.ledger.quiet_count (.lockerDeposits "full")
    have codes : SameCodes h { h with ledger := h.ledger.count (.lockerDeposits "full") } :=
      .of_banks rfl
    exact ⟨codes.permits (quiet.sameBooks.permits ord), .same banks rfl nofun⟩
  | cons place rest ih =>
    obtain ⟨id, own⟩ := place
    refine Call.meets_bind.2 (meets_did (D := SameBanks)
      (Ledger.meets_reserve s id parcel bank.codeLife _ ⟨.refl _, ord, trivial⟩) ord banks
      (fun _ _ => rfl) (fun did _ => did) ?_)
    intro held m h₀ h l answer ord banks _
    cases answer with
    | error e => exact .same banks rfl nofun
    | ok reservation =>
      cases reservation with
      | denied reason => exact ih ord banks
      | granted hold =>
        refine Call.meets_bind.2 (Call.meets_update.2 ⟨permits_assign ord .., ?_⟩)
        refine .issues ?_ ?_ rfl fun number' code' => ?_
        · exact (length_changeBank ..).trans (congrArg List.length banks)
        · exact (assignment?_congr banks number _).symm.trans
            (assignment?_of_assign { h with ledger := l } m.stamp number own hold)
        · rw [assignment?_assign]
          have old : h.banks[number]? = h₀.banks[number]? := by rw [banks]
          have here : ({ h with ledger := l } : House).assignment? number' code' =
            h₀.assignment? number' code' := assignment?_congr banks number' code'
          rw [here]
          exact congrArg (fun b : Option Bank => ite _ (b.map _) _) old

/-- **Every visit** is a pickup or files one new code at most. -/
theorem Visit.files {c : Call House Report} (visit : Visit s c) :
    (∃ number code, c = (Act.pickup number code).visit s) ∨
      c.Keeps conduct SameBanks fun _ h h' a => a.Files h h' := by
  cases visit with
  | party party =>
    refine .inr fun m h ord => ?_
    have party : Party s _ fun _ => none := ⟨party, fun _ _ h => nomatch h⟩
    exact Call.meets_bind.2 (meets_did (D := SameBanks)
      (party.keepsTo.first m h.ledger ord) ord rfl (fun _ _ => rfl) (fun did _ => did)
      fun _ did _ => .same did rfl nofun)
  | act act =>
    cases act with
    | pickup number code => exact .inl ⟨number, code, rfl⟩
    | ask r =>
      refine .inr fun m h ord => ?_
      have waited : Ledger.Waited m h.ledger h.ledger := ⟨.refl _, ord, trivial⟩
      exact Call.meets_bind.2 (Call.meets_bind.2 (meets_did (D := SameBanks)
        (r.meets_call s waited) ord rfl (fun _ _ => rfl) (fun did _ => did)
        fun _ did _ => .same did rfl nofun))
    | enter endpoint id holder duration price =>
      refine .inr fun m h ord => ?_
      have codes : SameCodes h (h.judge endpoint holder m).2 := .of_banks rfl
      have quiet : h.ledger.Quiet (h.judge endpoint holder m).2.ledger := ⟨_, rfl⟩
      have permitted : conduct.Permits [] h (h.judge endpoint holder m).2 :=
        codes.permits (quiet.sameBooks.permits ord)
      refine Call.meets_bind.2 (Call.meets_bind.2 (Call.meets_bind.2 ⟨permitted, ?_⟩))
      change Call.Meets _ _ _ (if (h.judge endpoint holder m).1 then _ else _) _ _ _ _
      split
      · exact meets_did (D := SameBanks) (Ledger.meets_reserve s id holder duration price
          ⟨.refl _, permitted.1, trivial⟩) permitted.1 rfl (fun _ _ => rfl)
          (fun did _ => did) fun _ did _ => .same did rfl nofun
      · exact .same rfl rfl nofun
    | deposit number bank parcel size =>
      refine .inr fun m h ord => ?_
      refine Call.meets_bind.2 (Call.meets_bind.2 (Call.meets_bind.2
        ((idle_candidates bank size).meets (fun _ _ => rfl) ?_ ord)))
      exact fun held m' h places _ ord => files_depositInto s number bank bank parcel size size
        places ord rfl
    | status number bank =>
      refine .inr fun m h ord => Call.meets_bind.2 (Call.meets_bind.2 ?_)
      exact (idle_bankStatus number bank).meets (fun _ _ => rfl)
        (fun _ _ _ _ _ _ => .same rfl rfl nofun) ord

end House

end Tenure
