import Tenure.Proofs.Admission.Documents
import Tenure.Proofs.Text
import Tenure.Settings

/-!
# How values are written

What a text has to be for a setting to be read from it, and what is read: a number of milliseconds
(`Settings.MillisText`), a policy (`Settings.PolicyText`), a limiter (`Settings.LimiterText`), a port
(`Settings.PortText`). Each reader accepts exactly these texts.

A limiter is a document, and which texts are documents is up to the library that reads them. Among
the texts of objects it is the members that count (`Settings.limiterText_iff`).
-/

namespace Tenure

/-! ## Limiters -/

namespace LimiterConfig

/-- Whether calls can be admitted at all and the rate makes sense. -/
def Sound : LimiterConfig → Prop
  | tokenBucket capacity rate => capacity ≠ 0 ∧ rate.isFinite = true ∧ ¬ rate < 0.0
  | fixedWindow maxRequests windowMillis => maxRequests ≠ 0 ∧ windowMillis ≠ 0
  | slidingWindowLog maxRequests windowMillis => maxRequests ≠ 0 ∧ windowMillis ≠ 0

theorem windowFault?_eq_none_iff {m : UInt32} {w : UInt64} :
    windowFault? m w = none ↔ m ≠ 0 ∧ w ≠ 0 := by
  rw [windowFault?]
  split
  · next zero => simp [zero]
  · next some =>
    split
    · next zero => simp [zero]
    · next some' => simp [some, some']

/-- A configuration has no fault if and only if it is sound. -/
theorem fault?_eq_none_iff {c : LimiterConfig} : c.fault? = none ↔ c.Sound := by
  cases c with
  | tokenBucket capacity rate =>
    rw [fault?, Sound]
    split
    · next zero => simp [zero]
    · next some => simp [some]
  | fixedWindow maxRequests windowMillis => exact windowFault?_eq_none_iff
  | slidingWindowLog maxRequests windowMillis => exact windowFault?_eq_none_iff

end LimiterConfig

namespace Settings

open Text

variable {lib : Json.Library} {t : String} {n : Nat}

/-! ## The values of settings -/

/-- A number of milliseconds: a numeral between blanks, at least one and below `2 ^ 64`. -/
def MillisText (t : String) (n : Nat) : Prop :=
  (∃ core, Trims t.toList core ∧ Numeral core n) ∧ 1 ≤ n ∧ n < UInt64.size

/-- A policy: its name in letters of either case, between blanks. -/
def PolicyText (t : String) (p : HolderPolicy) : Prop :=
  ∃ core, Trims t.toList core ∧ core.map Char.toLower = p.text.toList

/-- A limiter: a document of a configuration that is sound. -/
def LimiterText (lib : Json.Library) (t : String) (c : LimiterConfig) : Prop :=
  LimiterConfig.ofText lib t = .ok c ∧ c.Sound

/-- A port: a numeral between blanks, below `2 ^ 16`. -/
def PortText (t : String) (port : Option Nat) : Prop :=
  ∃ n, port = some n ∧ (∃ core, Trims t.toList core ∧ Numeral core n) ∧ n < UInt16.size

theorem exists_trims_iff {P : List Char → Prop} :
    (∃ core, Trims t.toList core ∧ P core) ↔ P (strip t.toList) := by
  simp only [← strip_eq_iff, exists_eq_left']

theorem readMillis_eq_ok_iff : readMillis t = .ok n ↔ MillisText t n := by
  rw [MillisText, exists_trims_iff]
  have reads := @readNumeral_eq_ok_iff (strip t.toList) UInt64.size
  cases read : readNumeral UInt64.size (strip t.toList) with
  | error e =>
    refine iff_of_false (by simp [readMillis, read]) ?_
    rintro ⟨numeral, -, below⟩
    have := (reads (n := n) (by decide)).2 ⟨numeral, below⟩
    rw [read] at this
    cases this
  | ok m =>
    have own : ∀ n, m = n ↔ Numeral (strip t.toList) n ∧ n < UInt64.size := by
      intro n
      rw [← reads (by decide), read, Except.ok.injEq]
    have same : readMillis t = .ok n ↔ m = n ∧ 1 ≤ n := by
      simp only [readMillis, read]
      cases m with
      | zero => simpa using Eq.symm
      | succ m =>
        simp only [Except.ok.injEq]
        omega
    rw [same, own, and_assoc, and_comm (a := n < UInt64.size)]

/-- A sign, leading zeros and blanks of any kind do not count. -/
example : readMillis "\t+0070\u3000" = .ok 70 := by decide

theorem ofText?_eq_some_iff {s : String} {p : HolderPolicy} :
    HolderPolicy.ofText? s = some p ↔ p.text = s := by
  unfold HolderPolicy.ofText?
  refine ⟨fun found => ?_, ?_⟩
  · have named := List.find?_some found
    exact of_decide_eq_true named
  rintro rfl
  cases p <;> decide

theorem readPolicy_eq_ok_iff {p : HolderPolicy} : readPolicy t = .ok p ↔ PolicyText t p := by
  rw [PolicyText, exists_trims_iff]
  have name : ((Text.trimmed t).map Char.toLower).toList = (strip t.toList).map Char.toLower := by
    rw [Text.trimmed, String.toList_map, String.toList_ofList]
  have same : (strip t.toList).map Char.toLower = p.text.toList ↔
      HolderPolicy.ofText? ((Text.trimmed t).map Char.toLower) = some p := by
    rw [ofText?_eq_some_iff, ← name, String.toList_inj, eq_comm]
  rw [same, readPolicy]
  cases HolderPolicy.ofText? ((Text.trimmed t).map Char.toLower) <;> simp

theorem readLimiter_eq_ok_iff {c : LimiterConfig} :
    readLimiter lib t = .ok c ↔ LimiterText lib t c := by
  rw [LimiterText]
  cases read : LimiterConfig.ofText lib t with
  | error e => simp [readLimiter, read]
  | ok c' =>
    have sound := @LimiterConfig.fault?_eq_none_iff c'
    have same : readLimiter lib t = .ok c ↔ c' = c ∧ c'.fault? = none := by
      simp only [readLimiter, read]
      cases c'.fault? <;> simp
    rw [same, sound, Except.ok.injEq]
    exact and_congr_right fun own => by rw [own]

/-- **The text of an object** is a limiter if and only if one member names the algorithm, there is one
for each of its two fields, and these make sense. -/
theorem limiterText_iff (laws : lib.Lawful) {ms : List (String × Json)}
    (text : lib.document? t = some (.object ms)) {c : LimiterConfig} :
    LimiterText lib t c ↔ LimiterConfig.GivenBy lib ms c ∧ c.Sound := by
  rw [LimiterText, LimiterConfig.ofText_eq_ok_iff laws text]

/-- The members may be in any order, and others do not count. -/
example : LimiterText Json.library LimiterConfig.typedBucket (.tokenBucket 10 2.5) := by
  refine (limiterText_iff Json.lawful_library LimiterConfig.document?_typedBucket).2
    ⟨⟨rfl, ?_, ?_⟩, ?_⟩
  · exact congrArg (fun r => [r]) (Json.Scalar.read_toJson .u32 10)
  · exact congrArg (fun r => [r]) (Json.Scalar.read_toJson .f64 2.5)
  · rw [LimiterConfig.Sound]
    decide +kernel

theorem readPort_eq_ok_iff {port : Option Nat} : readPort t = .ok port ↔ PortText t port := by
  simp only [PortText, exists_trims_iff, ← readNumeral_eq_ok_iff (show 0 < UInt16.size by decide)]
  rw [readPort]
  cases readNumeral UInt16.size (strip t.toList) with
  | error e => simp
  | ok n => simp [eq_comm]

end Settings

end Tenure
