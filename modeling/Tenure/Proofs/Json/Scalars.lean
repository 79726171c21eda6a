import Tenure.Json.Writer
import Tenure.Proofs.Json.Tokens
import Tenure.Proofs.Text

/-!
# Strings and whole numbers are read back

A string is written with escapes and quotes, and is read back character by character
(`Json.readString_escaped`). A whole number that fits a word is written with its digits and no zero
in front, and its digits add up to it again as they are read (`Number.absorb_digits`).
-/

namespace Tenure

namespace Json

/-! ## Strings -/

theorem hexValue?_hexDigit {n : Nat} (h : n < 16) : hexValue? (hexDigit n) = some n := by
  have all : ∀ n : Fin 16, hexValue? (hexDigit n) = some n.val := by decide
  exact all ⟨n, h⟩

/-- **What is written for a character** is read as that character. -/
theorem readString_escaped (fuel : Nat) (done : List Char) (c : Char) (cs : List Char) :
    readString (fuel + 1) done (escaped c ++ cs) = readString fuel (c :: done) cs := by
  unfold escaped
  split
  case h_8 quote backslash _ _ _ _ _ =>
    split
    · next control =>
      have high : c.toNat / 16 < 16 := by omega
      have low : c.toNat % 16 < 16 := Nat.mod_lt _ (by decide)
      have unit : hexUnit ('0' :: '0' :: hexDigit (c.toNat / 16) :: hexDigit (c.toNat % 16) :: cs) =
          some (c.toNat, cs) := by
        simp only [hexUnit, hexValue?_hexDigit high, hexValue?_hexDigit low,
          show hexValue? '0' = some 0 from rfl]
        congr 2
        omega
      have code : escapedCode
          ('0' :: '0' :: hexDigit (c.toNat / 16) :: hexDigit (c.toNat % 16) :: cs) = some (c, cs) := by
        simp only [escapedCode, unit]
        rw [if_neg (by omega), if_neg (by omega), Char.ofNat_toNat]
      simp [readString, code]
    · next visible =>
      have quote : c ≠ '"' := quote
      have backslash : c ≠ '\\' := backslash
      simp [readString, quote, backslash, visible]
  all_goals rfl

theorem readString_flatMap_escaped (s done : List Char) {fuel : Nat} (enough : s.length < fuel) :
    readString fuel done (s.flatMap escaped ++ ['"']) =
      some (String.ofList (done.reverse ++ s), []) := by
  induction s generalizing fuel done with
  | nil =>
    obtain ⟨fuel, rfl⟩ := Nat.exists_eq_add_of_le' enough
    simp [readString]
  | cons c s ih =>
    obtain ⟨fuel, rfl⟩ := Nat.exists_eq_add_of_le' (Nat.zero_lt_of_lt enough)
    rw [List.flatMap_cons, List.append_assoc, readString_escaped,
      ih (c :: done) (Nat.lt_of_succ_lt_succ enough), List.reverse_cons, List.append_assoc,
      List.singleton_append]

theorem length_le_flatMap_escaped (s : List Char) : s.length ≤ (s.flatMap escaped).length := by
  induction s with
  | nil => exact Nat.le_refl _
  | cons c s ih =>
    have some : 0 < (escaped c).length := by
      unfold escaped
      split
      case h_8 => split <;> exact Nat.succ_pos _
      all_goals exact Nat.succ_pos _
    rw [List.flatMap_cons, List.length_append, List.length_cons]
    omega

/-- **A string as written** is one token. -/
theorem cut_writeString (s : String) : Cut (writeString s).toList [.string s] := by
  rw [writeString, String.toList_ofList]
  refine Cut.cons (by decide) nofun (fun fuel enough => ?_) Cut.nil
  have long := length_le_flatMap_escaped s.toList
  simp only [List.length_cons, List.length_append, List.length_nil] at enough
  simp [readToken, readString_flatMap_escaped s.toList [] (show s.toList.length < fuel by omega)]

end Json

/-! ## Whole numbers -/

/-- **Digits add up** to what they stand for, if that fits a word. -/
theorem Number.absorb_digits {cs : List Char} {n : Nat}
    (fits : Nat.ofDigitChars 10 cs n < UInt64.size) :
    absorb n (cs.map fun c => c.toNat - 48) = (Nat.ofDigitChars 10 cs n, cs.length) := by
  induction cs generalizing n with
  | nil => rfl
  | cons c cs ih =>
    rw [Nat.ofDigitChars_cons] at fits
    have first : 10 * n + (c.toNat - 48) < UInt64.size :=
      Nat.lt_of_le_of_lt Text.le_ofDigitChars fits
    have others : absorb (10 * n + (c.toNat - 48)) (cs.map fun c => c.toNat - 48) = _ := ih fits
    rw [List.map_cons, absorb, if_pos first, others, Nat.ofDigitChars_cons]
    rfl

/-- Digits alone are a whole number. -/
theorem Number.ofLiteral_digits {cs : List Char} (fits : Nat.ofDigitChars 10 cs 0 < UInt64.size) :
    ofLiteral ⟨false, cs.map fun c => c.toNat - 48, none, none⟩ =
      some (.natural (UInt64.ofNat (Nat.ofDigitChars 10 cs 0))) := by
  unfold ofLiteral
  rw [absorb_digits fits]
  simp only [List.length_map, Nat.sub_self]
  rfl

theorem exists_toDigits_eq_cons {n : Nat} (some : 0 < n) :
    ∃ d cs, Nat.toDigits 10 n = d.digitChar :: cs ∧ 0 < d ∧ d < 10 := by
  induction n using Nat.strongRecOn with
  | ind n ih =>
    rw [Nat.toDigits_eq_if (by decide)]
    split
    · next small => exact ⟨n, [], rfl, some, small⟩
    · next large =>
      obtain ⟨d, cs, front, other⟩ := ih (n / 10) (by omega) (by omega)
      exact ⟨d, cs ++ [(n % 10).digitChar], by rw [front, List.cons_append], other⟩

/-- A number is written without zeros in front. -/
theorem map_toDigits_ne (n d : Nat) (ds : List Nat) :
    (Nat.toDigits 10 n).map (fun c => c.toNat - 48) ≠ 0 :: d :: ds := by
  intro same
  cases n with
  | zero => cases same
  | succ n =>
    obtain ⟨d, cs, front, some, small⟩ := exists_toDigits_eq_cons (Nat.succ_pos n)
    have value : ∀ d : Fin 10, d.val.digitChar.toNat - 48 = d.val := by decide
    rw [front, List.map_cons, value ⟨d, small⟩] at same
    exact Nat.ne_of_gt some (List.cons.inj same).1

namespace Json

theorem not_isSpace_of_isDigit {c : Char} (digit : c.isDigit = true) : isSpace c = false := by
  cases space : isSpace c with
  | false => rfl
  | true =>
    simp only [isSpace, Bool.or_eq_true, decide_eq_true_eq] at space
    obtain ((rfl | rfl) | rfl) | rfl := space <;> cases digit

theorem isDigit_of_mem_toDigits {n : Nat} : ∀ c ∈ Nat.toDigits 10 n, c.isDigit = true :=
  fun _ hc => Nat.isDigit_of_mem_toDigits (by decide) (by decide) hc

/-- The digits of a whole number are read as that number. -/
theorem readNumber_toDigits (n : UInt64) :
    readNumber false (Nat.toDigits 10 n.toNat) = some (.natural n, []) := by
  have span : spanDigits (Nat.toDigits 10 n.toNat) =
      ((Nat.toDigits 10 n.toNat).map fun c => c.toNat - 48, []) := by
    rw [spanDigits, List.takeWhile_eq_self_iff.2 isDigit_of_mem_toDigits,
      List.dropWhile_eq_nil_iff.2 isDigit_of_mem_toDigits]
  have value : Nat.ofDigitChars 10 (Nat.toDigits 10 n.toNat) 0 = n.toNat :=
    Nat.ofDigitChars_ten_toDigits
  have literal := Number.ofLiteral_digits (value.symm ▸ n.toNat_lt)
  rw [value, UInt64.ofNat_toNat] at literal
  exact readNumber_of_parts span (mt List.map_eq_nil_iff.1 Nat.toDigits_ne_nil) (map_toDigits_ne _) rfl
    rfl literal

/-- **A whole number as written** is one token. -/
theorem cut_writeNumber_natural (n : UInt64) :
    Cut (writeNumber (.natural n)).toList [.number (.natural n)] := by
  rw [writeNumber, Nat.toString_eq_ofList_toDigits, String.toList_ofList]
  have read := readNumber_toDigits n
  cases front : Nat.toDigits 10 n.toNat with
  | nil => exact absurd front Nat.toDigits_ne_nil
  | cons c cs =>
    have digit := isDigit_of_mem_toDigits c (front ▸ List.mem_cons_self)
    refine Cut.cons (not_isSpace_of_isDigit digit) Token.noConfusion (fun fuel _ => ?_) Cut.nil
    rw [readToken_of_isDigit digit, ← front, read]
    rfl

end Json

end Tenure
