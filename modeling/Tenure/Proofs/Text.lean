import Mathlib.Data.List.TakeWhile
import Tenure.Text.Blank
import Tenure.Text.Numeral

/-!
# Blanks and numerals

Blanks at the ends of a text do not count (`Text.Trims`). Numbers are numerals in base ten
(`Text.Numeral`): a reader gives up on one as soon as its digits so far reach the bound, which loses
nothing since further digits make no number smaller (`Text.le_ofDigitChars`).
-/

namespace Tenure

namespace Text

/-! ## Blanks at the ends -/

/-- A row of characters, `core`, from which `cs` differs by blanks at its ends only, and that has none
there. -/
structure Trims (cs core : List Char) : Prop where
  within : ∃ before after, cs = before ++ (core ++ after) ∧
    (∀ c ∈ before, isBlank c = true) ∧ ∀ c ∈ after, isBlank c = true
  head : ∀ c ∈ core.head?, isBlank c = false
  last : ∀ c ∈ core.getLast?, isBlank c = false

variable {cs core : List Char}

theorem head?_dropWhile {p : Char → Bool} {c : Char} (first : c ∈ (cs.dropWhile p).head?) :
    p c = false := by
  have := List.head?_dropWhile_not p cs
  rw [first] at this
  simpa using this

theorem trims_strip (cs : List Char) : Trims cs (strip cs) := by
  have front := List.takeWhile_append_dropWhile (p := isBlank) (l := cs)
  generalize trimmed : cs.dropWhile isBlank = rest at front
  have stripped : strip cs = (rest.reverse.dropWhile isBlank).reverse := by rw [strip, trimmed]
  have back : strip cs ++ (rest.reverse.takeWhile isBlank).reverse = rest := by
    rw [stripped, ← List.reverse_append, List.takeWhile_append_dropWhile, List.reverse_reverse]
  refine ⟨⟨cs.takeWhile isBlank, (rest.reverse.takeWhile isBlank).reverse, ?_, fun c hc => ?_,
    fun c hc => ?_⟩, fun c hc => ?_, fun c hc => ?_⟩
  · rw [back, front]
  · exact List.mem_takeWhile_imp hc
  · exact List.mem_takeWhile_imp (List.mem_reverse.1 hc)
  · have first : c ∈ (cs.dropWhile isBlank).head? := by
      rw [trimmed, ← back, Option.mem_def, List.head?_append, Option.mem_def.1 hc]
      rfl
    exact head?_dropWhile first
  · rw [stripped, List.getLast?_reverse] at hc
    exact head?_dropWhile hc

theorem Trims.strip_eq (h : Trims cs core) : strip cs = core := by
  obtain ⟨before, after, rfl, blank, blank'⟩ := h.within
  have kept : (core ++ after).dropWhile isBlank = core ++ if core = [] then [] else after := by
    cases core with
    | nil => simpa [List.dropWhile_eq_nil_iff] using blank'
    | cons c rest => simp [h.head c rfl]
  have kept' : core.reverse.dropWhile isBlank = core.reverse := by
    cases last : core.reverse with
    | nil => rfl
    | cons c rest =>
      have : isBlank c = false := h.last c (by rw [← List.head?_reverse, last]; rfl)
      simp [this]
  rw [strip, List.dropWhile_append_of_pos blank, kept]
  split
  · next empty => simp [empty]
  · rw [List.reverse_append, List.dropWhile_append_of_pos (by simpa using blank'), kept',
      List.reverse_reverse]

/-- **Stripping** cuts off the blanks at both ends and nothing else. -/
theorem strip_eq_iff : strip cs = core ↔ Trims cs core :=
  ⟨fun h => h ▸ trims_strip cs, Trims.strip_eq⟩

/-! ## Numerals -/

/-- A whole number in base ten: a plus sign if one likes, and at least one digit. -/
def Numeral (cs : List Char) (n : Nat) : Prop :=
  ∃ ds, (cs = ds ∨ cs = '+' :: ds) ∧ ds ≠ [] ∧ (∀ c ∈ ds, c.isDigit = true) ∧
    Nat.ofDigitChars 10 ds 0 = n

variable {bound m n : Nat}

/-- Further digits make no number smaller. -/
theorem le_ofDigitChars : n ≤ Nat.ofDigitChars 10 cs n := by
  rw [Nat.ofDigitChars_eq_ofDigitChars_zero]
  exact Nat.le_trans (Nat.le_mul_of_pos_left _ (Nat.pow_pos (by decide))) (Nat.le_add_right ..)

theorem digitValue?_eq_some_iff {c : Char} {d : Nat} :
    digitValue? c = some d ↔ c.isDigit = true ∧ c.toNat - '0'.toNat = d := by
  rw [digitValue?]
  split
  · next digit =>
    rw [Option.some_inj]
    exact (and_iff_right digit).symm
  · next other => simp [other]

/-- **Digits** are read as what they stand for after those before them, if that stays below the
bound. -/
theorem readDigits_eq_ok_iff (low : n < bound) :
    readDigits bound n cs = .ok m ↔
      (∀ c ∈ cs, c.isDigit = true) ∧ Nat.ofDigitChars 10 cs n = m ∧ m < bound := by
  induction cs generalizing n with
  | nil =>
    rw [readDigits, Except.ok.injEq, Nat.ofDigitChars_nil]
    exact ⟨fun same => ⟨nofun, same, same ▸ low⟩, fun h => h.2.1⟩
  | cons c cs ih =>
    rw [readDigits, Nat.ofDigitChars_cons, List.forall_mem_cons]
    cases digit : digitValue? c with
    | none =>
      have other : ¬ c.isDigit = true := fun is => by simp [digitValue?, is] at digit
      simp [other]
    | some d =>
      obtain ⟨is, rfl⟩ := digitValue?_eq_some_iff.1 digit
      simp only [is, true_and]
      split
      · next below => exact ih below
      · next reached =>
        refine iff_of_false nofun ?_
        rintro ⟨-, rfl, below⟩
        exact reached (Nat.lt_of_le_of_lt le_ofDigitChars below)

/-- **A numeral** is read as the number that it stands for, if that is below the bound. -/
theorem readNumeral_eq_ok_iff (some : 0 < bound) :
    readNumeral bound cs = .ok n ↔ Numeral cs n ∧ n < bound := by
  have plus : ¬ '+'.isDigit = true := by decide
  -- the digits are what follows the sign, and a sign is no digit
  unfold readNumeral
  split
  · refine iff_of_false nofun ?_
    rintro ⟨⟨ds, rfl | h, nonempty, -⟩, -⟩
    · exact nonempty rfl
    · cases h
  · refine iff_of_false nofun ?_
    rintro ⟨⟨ds, rfl | h, nonempty, digits, -⟩, -⟩
    · exact plus (digits '+' List.mem_cons_self)
    · cases h
      exact nonempty rfl
  · next ds alone =>
    rw [readDigits_eq_ok_iff some]
    constructor
    · rintro ⟨digits, value, below⟩
      exact ⟨⟨ds, .inr rfl, fun empty => alone (by rw [empty]), digits, value⟩, below⟩
    · rintro ⟨⟨ds', rfl | h, -, digits, value⟩, below⟩
      · exact absurd (digits '+' List.mem_cons_self) plus
      · cases h
        exact ⟨digits, value, below⟩
  · next nonempty _ unsigned =>
    rw [readDigits_eq_ok_iff some]
    constructor
    · rintro ⟨digits, value, below⟩
      exact ⟨⟨cs, .inl rfl, fun empty => nonempty empty, digits, value⟩, below⟩
    · rintro ⟨⟨ds, rfl | h, -, digits, value⟩, below⟩
      · exact ⟨digits, value, below⟩
      · exact absurd h (unsigned ds)

end Text

end Tenure
