import Tenure.Id

/-!
# New names

What is new gets a name, and names come from elsewhere: from a **source**, of which nothing is known
but what is counted on. No name is drawn twice, whatever the time (`Source.apart`). A pickup code is
made of the end of a name, so different names may make the same code, and names are drawn until the
code is vacant (`Supply.drawCode`). That this comes to an end as long as there are codes left is
counted on as well (`Source.renews`).

A source that counts is one of them (`Source.counting`).
-/

namespace Tenure

/-- What a name is for. -/
inductive Kind where
  /-- a group of resources -/
  | group
  /-- a resource -/
  | resource
  /-- a group booking -/
  | booking
  /-- a pickup code -/
  | code
  deriving DecidableEq, Repr

/-! ## Codes -/

/-- How many codes there are: as many as six digits can tell apart. -/
def codeRange : Nat := 0x40000000

/-- The code that is made of a name: a word and the last six digits of the written form
(`Id.drop_text`). -/
def codeOf (id : Id) : String := "CODE" ++ String.ofList (Id.digits 6 id.serial)

namespace Id

theorem drop_digits (skipped width n : Nat) :
    (digits (skipped + width) n).drop skipped = digits width n := by
  induction width generalizing n with
  | zero => rw [List.drop_of_length_le (by simp), digits]
  | succ width ih =>
    rw [← Nat.add_assoc, digits, List.drop_append_of_le_length (by simp), ih, digits]

/-- The end of the written form. -/
theorem drop_text (id : Id) : id.text.toList.drop 20 = digits 6 id.serial := by
  rw [text, String.toList_ofList, List.drop_append, length_digits]
  simp [drop_digits 10 6]

/-- Different values below 32 have different digits. -/
theorem digit_inj : ∀ a < 32, ∀ b < 32, digit a = digit b → a = b := by
  decide +kernel

/-- Digits tell apart what they can hold. -/
theorem mod_eq_of_digits {width n m : Nat} (h : digits width n = digits width m) :
    n % Nat.pow 32 width = m % Nat.pow 32 width := by
  induction width generalizing n m with
  | zero => exact (Nat.mod_one n).trans (Nat.mod_one m).symm
  | succ width ih =>
    obtain ⟨high, low⟩ := List.append_inj h (by simp)
    have low : n % 32 = m % 32 := digit_inj _ (Nat.mod_lt n (by decide)) _
      (Nat.mod_lt m (by decide)) (List.cons.inj low).1
    have split : Nat.pow 32 (width + 1) = 32 * Nat.pow 32 width := Nat.mul_comm ..
    rw [split, Nat.mod_mul, Nat.mod_mul, low, ih high]

end Id

/-- The same code is made of the same six digits. -/
theorem codeOf_inj {a b : Id} (h : codeOf a = codeOf b) :
    a.serial % codeRange = b.serial % codeRange :=
  Id.mod_eq_of_digits (String.ofList_injective ((String.append_right_inj _).1 h))

/-- A code that is longer than those taken. -/
def beyond (taken : List String) : String :=
  "CODE" ++ String.ofList (List.replicate (taken.foldr (fun code n => max code.length n) 0) '0')

theorem beyond_not_mem (taken : List String) : beyond taken ∉ taken := by
  have longest : ∀ code ∈ taken, code.length ≤ taken.foldr (fun code n => max code.length n) 0 := by
    induction taken with
    | nil => exact nofun
    | cons first rest ih =>
      intro code mem
      rcases List.mem_cons.1 mem with rfl | mem
      · exact Nat.le_max_left ..
      · exact Nat.le_trans (ih code mem) (Nat.le_max_right ..)
  intro mem
  have short := longest _ mem
  have word : "CODE".length = 4 := by decide
  rw [beyond, String.length_append, word, String.length_ofList, List.length_replicate] at short
  omega

/-! ## Where names come from -/

/-- Where names come from. -/
structure Source where
  /-- the name that is drawn at a wall time, after so many others -/
  name : Nat → Int → Id
  /-- how many draws are enough to come by a code that is not among those taken, after so many
  others -/
  tries : List String → Nat → Nat
  /-- no name is drawn twice -/
  apart : ∀ {m n : Nat} {t u : Int}, name m t = name n u → m = n
  /-- as long as not all codes are taken another one comes up -/
  renews : ∀ (taken : List String) (n : Nat) (now : Int), taken.length < codeRange →
    ∃ k < tries taken n, codeOf (name (n + k) now) ∉ taken

/-- The names still to be given out, and those given out. -/
structure Supply where
  /-- where they come from -/
  source : Source
  /-- what was given out so far, the latest first -/
  drawn : List (Kind × Id)

namespace Supply

variable {s : Supply} {kind : Kind} {id : Id} {now : Int}

/-- Gives out a name at a wall time. -/
def draw (s : Supply) (kind : Kind) (now : Int) : Id × Supply :=
  let id := s.source.name s.drawn.length now
  (id, { s with drawn := (kind, id) :: s.drawn })

/-- Draws names until the code made of one is not among those taken, so many at most. -/
def seek (taken : List String) (now : Int) : (tries : Nat) → Supply → Option String × Supply
  | 0, s => (none, s)
  | tries + 1, s =>
    let r := s.draw .code now
    if codeOf r.1 ∈ taken then seek taken now tries r.2 else (some (codeOf r.1), r.2)

/-- Gives out a code that is not among those taken. If all codes are, there is no end to the draws;
a longer one stands for what never comes up. -/
def drawCode (s : Supply) (now : Int) (taken : List String) : String × Supply :=
  let r := s.seek taken now (s.source.tries taken s.drawn.length)
  (r.1.getD (beyond taken), r.2)

/-! ## Names that were given out -/

/-- Whether a name will not be given out any more. -/
def Spent (s : Supply) (id : Id) : Prop :=
  ∀ n now, s.drawn.length ≤ n → s.source.name n now ≠ id

/-- What was given out is not given out again. -/
theorem Spent.draw (h : s.Spent id) (kind : Kind) (now : Int) : (s.draw kind now).2.Spent id :=
  fun n now' le => h n now' (Nat.le_of_succ_le le)

/-- A name that is given out is spent by that. -/
theorem spent_draw (s : Supply) (kind : Kind) (now : Int) :
    (s.draw kind now).2.Spent (s.draw kind now).1 := by
  intro n now' le same
  have := s.source.apart same
  rw [this] at le
  exact Nat.not_succ_le_self _ le

/-- What is given out was not spent. -/
theorem Spent.ne_draw (h : s.Spent id) : id ≠ (s.draw kind now).1 :=
  (h s.drawn.length now (Nat.le_refl _)).symm

theorem Spent.seek (h : s.Spent id) (taken : List String) (now : Int) (tries : Nat) :
    (s.seek taken now tries).2.Spent id := by
  induction tries generalizing s with
  | zero => exact h
  | succ tries ih =>
    rw [Supply.seek]
    split
    · exact ih (h.draw .code now)
    · exact h.draw .code now

/-- Looking for a code does not bring names back. -/
theorem Spent.drawCode (h : s.Spent id) (now : Int) (taken : List String) :
    (s.drawCode now taken).2.Spent id := h.seek taken now _

/-! ## Codes that are given out -/

/-- What is found is not taken. -/
theorem not_mem_of_seek {taken : List String} {tries : Nat} {code : String}
    (found : (s.seek taken now tries).1 = some code) : code ∉ taken := by
  induction tries generalizing s with
  | zero => cases found
  | succ tries ih =>
    rw [seek] at found
    split at found
    · exact ih found
    · next vacant =>
      obtain rfl := Option.some.inj found
      exact vacant

/-- If a code comes up in time that is not taken, what is found is the first one. -/
theorem seek_eq_some {taken : List String} {tries : Nat}
    (comes : ∃ k < tries, codeOf (s.source.name (s.drawn.length + k) now) ∉ taken) :
    ∃ k < tries, (s.seek taken now tries).1 =
        some (codeOf (s.source.name (s.drawn.length + k) now)) ∧
      ∀ j < k, codeOf (s.source.name (s.drawn.length + j) now) ∈ taken := by
  induction tries generalizing s with
  | zero =>
    obtain ⟨k, lt, -⟩ := comes
    exact absurd lt (Nat.not_lt_zero k)
  | succ tries ih =>
    rw [seek]
    split
    · next here =>
      -- the next draw is the first of the others
      have next : ∀ k, s.drawn.length + (k + 1) = (s.draw .code now).2.drawn.length + k := by
        intro k
        rw [draw, List.length_cons, Nat.add_right_comm, Nat.add_assoc]
      obtain ⟨k, lt, vacant⟩ := comes
      cases k with
      | zero => exact absurd here vacant
      | succ k =>
        rw [next] at vacant
        obtain ⟨k', lt', found, before⟩ := ih (s := (s.draw .code now).2)
          ⟨k, Nat.lt_of_succ_lt_succ lt, vacant⟩
        refine ⟨k' + 1, Nat.succ_lt_succ lt', ?_, fun j lt => ?_⟩
        · rw [next]
          exact found
        · cases j with
          | zero => exact here
          | succ j =>
            rw [next]
            exact before j (Nat.lt_of_succ_lt_succ lt)
    · exact ⟨0, Nat.succ_pos tries, rfl, nofun⟩

/-- **The code that is given out was not taken.** -/
theorem drawCode_not_mem (s : Supply) (now : Int) (taken : List String) :
    (s.drawCode now taken).1 ∉ taken := by
  simp only [drawCode]
  cases found : (s.seek taken now (s.source.tries taken s.drawn.length)).1 with
  | none => exact beyond_not_mem taken
  | some code => exact not_mem_of_seek found

/-- **As long as there are codes left**, it is the first one to come up that is not taken. -/
theorem drawCode_eq_codeOf (s : Supply) (now : Int) {taken : List String}
    (few : taken.length < codeRange) :
    ∃ k, (s.drawCode now taken).1 = codeOf (s.source.name (s.drawn.length + k) now) ∧
      ∀ j < k, codeOf (s.source.name (s.drawn.length + j) now) ∈ taken := by
  obtain ⟨k, -, found, before⟩ := seek_eq_some (s.source.renews taken s.drawn.length now few)
  refine ⟨k, ?_, before⟩
  rw [drawCode, found, Option.getD_some]

end Supply

/-! ## Counting -/

namespace Source

/-- Of more numbers in a row than there are codes taken, as long as there are others, not all make
one of these. -/
theorem exists_not_mem (stamp first : Nat) {taken : List String} {k : Nat}
    (more : taken.length < k) (fit : k ≤ codeRange) :
    ∃ i < k, codeOf ⟨stamp, first + i⟩ ∉ taken := by
  induction k generalizing first taken with
  | zero => exact absurd more (Nat.not_lt_zero _)
  | succ k ih =>
    by_cases here : codeOf ⟨stamp, first⟩ ∈ taken
    · have fewer : (taken.erase (codeOf ⟨stamp, first⟩)).length < k := by
        have := List.length_erase_of_mem here
        have := List.length_pos_of_mem here
        omega
      obtain ⟨i, lt, new⟩ := ih (first + 1) fewer (Nat.le_of_succ_le fit)
      have next : first + 1 + i = first + (i + 1) := by omega
      rw [next] at new
      refine ⟨i + 1, Nat.succ_lt_succ lt, fun old => new ((List.mem_erase_of_ne ?_).2 old)⟩
      intro same
      have same : (first + (i + 1)) % codeRange = first % codeRange := codeOf_inj same
      rw [codeRange] at same fit
      omega
    · exact ⟨0, Nat.succ_pos k, here⟩

/-- Names are numbered from `first` on. -/
def counting (first : Nat) : Source where
  name n now := ⟨now.toNat % 0x1000000000000, first + n⟩
  tries taken _ := taken.length + 1
  apart same := Nat.add_left_cancel (congrArg Id.serial same)
  renews taken n now few := by
    obtain ⟨i, lt, new⟩ := exists_not_mem (now.toNat % 0x1000000000000) (first + n)
      (Nat.lt_succ_self taken.length) few
    exact ⟨i, lt, by rwa [← Nat.add_assoc]⟩

end Source

end Tenure
