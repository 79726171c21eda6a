import Mathlib.Data.List.Basic
import Mathlib.Data.List.TakeWhile
import Tenure.Json.Token

/-!
# Cutting a text into tokens

What is read off the front of a text does not depend on what comes after it (`Json.Steady`), with one
exception: a number is read as far as it goes, so what comes after it must not go on with it
(`Json.Ends`).

A text that makes sense to its end is therefore cut into the same tokens whatever is written behind it
(`Json.readTokens_append`), and the tokens of a text that was put together from such parts are those of
its parts (`Json.Cut.append`, `Json.Cut.cons`). How much fuel there is does not matter.
-/

namespace Tenure.Json

/-! ## Reading off the front -/

section Steady

variable {α : Type}

/-- Whether what is read off the front of a text does not depend on what comes after it, as long as
that is `P`. -/
def Steady (P : List Char → Prop) (read : List Char → Option (α × List Char)) : Prop :=
  ∀ ⦃cs a r⦄, read cs = some (a, r) → r <:+ cs ∧ ∀ x, P x → read (cs ++ x) = some (a, r ++ x)

/-- What may come after a number: anything that does not go on with it. -/
def Ends (x : List Char) : Prop :=
  ∀ c ∈ x.head?, c.isDigit = false ∧ c ≠ '.' ∧ c ≠ 'e' ∧ c ≠ 'E'

/-! ### Strings -/

theorem steady_hexUnit : Steady (fun _ => True) hexUnit := by
  intro cs n r read
  unfold hexUnit at read
  split at read
  · next a b c d rest =>
    split at read
    · next h₁ h₂ h₃ h₄ =>
      cases read
      exact ⟨⟨[a, b, c, d], rfl⟩, fun x _ => by simp [hexUnit, h₁, h₂, h₃, h₄]⟩
    · cases read
  · cases read

theorem steady_escapedCode : Steady (fun _ => True) escapedCode := by
  intro cs c r read
  unfold escapedCode at read
  split at read
  · cases read
  · next n rest unit =>
    obtain ⟨suffix, append⟩ := steady_hexUnit unit
    split at read
    · cases read
    · next low =>
      split at read
      · next high =>
        split at read
        · next rest' =>
          split at read
          · next m rest'' unit' =>
            obtain ⟨suffix', append'⟩ := steady_hexUnit unit'
            split at read
            · next second =>
              obtain ⟨rfl, rfl⟩ := Prod.mk.inj (Option.some.inj read)
              refine ⟨(suffix'.trans ⟨['\\', 'u'], rfl⟩).trans suffix, fun x _ => ?_⟩
              simp only [escapedCode, append x trivial, List.cons_append, append' x trivial, if_neg low,
                if_pos high, if_pos second]
            · cases read
          · cases read
        · cases read
      · next high =>
        cases read
        exact ⟨suffix, fun x _ => by simp [escapedCode, append x trivial, low, high]⟩

/-- The character of an escape after its backslash, and what follows it. -/
def readEscape : List Char → Option (Char × List Char)
  | [] => none
  | e :: cs => if e = 'u' then escapedCode cs else (escapedLetter? e).map fun c => (c, cs)

theorem readString_backslash (fuel : Nat) (done cs : List Char) :
    readString (fuel + 1) done ('\\' :: cs) =
      (readEscape cs).bind fun r => readString fuel (r.1 :: done) r.2 := by
  cases cs with
  | nil => rfl
  | cons e cs =>
    by_cases byCode : e = 'u'
    · simp only [readString, readEscape, byCode]
      cases escapedCode cs <;> rfl
    · simp only [readString, readEscape, byCode]
      cases escapedLetter? e <;> rfl

theorem steady_readEscape : Steady (fun _ => True) readEscape := by
  intro cs c r read
  cases cs with
  | nil => cases read
  | cons e cs =>
    rw [readEscape] at read
    split at read
    · next byCode =>
      obtain ⟨suffix, append⟩ := steady_escapedCode read
      refine ⟨suffix.trans (List.suffix_cons ..), fun x _ => ?_⟩
      rw [List.cons_append, readEscape, if_pos byCode, append x trivial]
    · next byCode =>
      obtain ⟨c, letter, same⟩ := Option.map_eq_some_iff.1 read
      cases same
      refine ⟨List.suffix_cons .., fun x _ => ?_⟩
      rw [List.cons_append, readEscape, if_neg byCode, letter, Option.map_some]

/-- **A string** is read up to its closing quote, whatever comes after that. -/
theorem steady_readString {fuel fuel' : Nat} (more : fuel ≤ fuel') {done cs : List Char} {s : String}
    {r : List Char} (read : readString fuel done cs = some (s, r)) :
    r <:+ cs ∧ ∀ x, readString fuel' done (cs ++ x) = some (s, r ++ x) := by
  induction fuel generalizing fuel' done cs with
  | zero => simp [readString] at read
  | succ fuel ih =>
    obtain ⟨fuel', rfl⟩ := Nat.exists_eq_add_of_le' (Nat.le_trans (Nat.succ_pos fuel) more)
    have more := Nat.le_of_succ_le_succ more
    cases cs with
    | nil => simp [readString] at read
    | cons c cs =>
      by_cases backslash : c = '\\'
      · subst backslash
        rw [readString_backslash] at read
        obtain ⟨⟨c, rest⟩, escape, read⟩ := Option.bind_eq_some_iff.1 read
        obtain ⟨suffix, append⟩ := steady_readEscape escape
        obtain ⟨suffix', append'⟩ := ih more read
        refine ⟨(suffix'.trans suffix).trans (List.suffix_cons ..), fun x => ?_⟩
        rw [List.cons_append, readString_backslash, append x trivial, Option.bind_some, append' x]
      · unfold readString at read
        split at read
        · next quote =>
          cases read
          exact ⟨List.suffix_cons .., fun x => by simp [readString, quote]⟩
        · next quote =>
          split at read
          · cases read
          · next visible =>
            obtain ⟨suffix, append⟩ := ih more read
            refine ⟨suffix.trans (List.suffix_cons ..), fun x => ?_⟩
            simp [readString, quote, backslash, visible, append x]

/-! ### Numbers -/

theorem spanDigits_append {cs x : List Char} (ends : Ends x) :
    spanDigits (cs ++ x) = ((spanDigits cs).1, (spanDigits cs).2 ++ x) := by
  induction cs with
  | nil =>
    cases x with
    | nil => rfl
    | cons c x => simp [spanDigits, (ends c rfl).1]
  | cons c cs ih =>
    simp only [spanDigits, Prod.mk.injEq] at ih
    cases digit : c.isDigit <;> simp [spanDigits, digit, ih]

theorem steady_spanDigits {cs r : List Char} {n : List Nat} (read : spanDigits cs = (n, r)) :
    r <:+ cs ∧ ∀ x, Ends x → spanDigits (cs ++ x) = (n, r ++ x) := by
  refine ⟨?_, fun x ends => by rw [spanDigits_append ends, read]⟩
  obtain ⟨-, rfl⟩ := Prod.mk.inj read
  exact List.dropWhile_suffix _

theorem steady_readFraction : Steady Ends readFraction := by
  intro cs f r read
  unfold readFraction at read
  split at read
  · split at read
    · cases read
    · next some span =>
      cases read
      obtain ⟨suffix, append⟩ := steady_spanDigits span
      refine ⟨suffix.trans (List.suffix_cons ..), fun x ends => ?_⟩
      simp [readFraction, append x ends]
  · next other =>
    cases read
    refine ⟨List.suffix_rfl, fun x ends => ?_⟩
    -- the point would have to be in what comes after
    cases cs with
    | nil =>
      cases x with
      | nil => rfl
      | cons c x => simp [readFraction, (ends c rfl).2.1]
    | cons c cs =>
      have : c ≠ '.' := fun point => other cs (by rw [point])
      simp [readFraction, this]

theorem steady_readPower (minus : Bool) : Steady Ends (readPower minus) := by
  intro cs e r read
  unfold readPower at read
  split at read
  · cases read
  · next ds rest some span =>
    cases read
    obtain ⟨suffix, append⟩ := steady_spanDigits span
    refine ⟨suffix, fun x ends => ?_⟩
    simp [readPower, append x ends]

theorem steady_readExponent : Steady Ends readExponent := by
  intro cs e r read
  cases cs with
  | nil =>
    cases read
    refine ⟨List.suffix_rfl, fun x ends => ?_⟩
    cases x with
    | nil => rfl
    | cons c x => simp [readExponent, (ends c rfl).2]
  | cons c cs =>
    unfold readExponent at read
    dsimp only at read
    split at read
    · next letter =>
      split at read
      · next ds =>
        obtain ⟨suffix, append⟩ := steady_readPower _ read
        refine ⟨suffix.trans ⟨[c, '+'], rfl⟩, fun x ends => ?_⟩
        simp [readExponent, letter, append x ends]
      · next ds =>
        obtain ⟨suffix, append⟩ := steady_readPower _ read
        refine ⟨suffix.trans ⟨[c, '-'], rfl⟩, fun x ends => ?_⟩
        simp [readExponent, letter, append x ends]
      · next plus minus =>
        obtain ⟨suffix, append⟩ := steady_readPower _ read
        refine ⟨suffix.trans (List.suffix_cons ..), fun x ends => ?_⟩
        cases cs with
        | nil => cases read
        | cons d cs =>
          have plus : d ≠ '+' := fun same => plus cs (by rw [same])
          have minus : d ≠ '-' := fun same => minus cs (by rw [same])
          simp [readExponent, letter, plus, minus, ← append x ends]
    · next other =>
      cases read
      exact ⟨List.suffix_rfl, fun x ends => by simp [readExponent, other]⟩

/-- The parts of a number that is read. -/
theorem exists_of_readNumber {minus : Bool} {cs r : List Char} {n : Number}
    (read : readNumber minus cs = some (n, r)) :
    ∃ whole rest fraction rest' exponent, spanDigits cs = (whole, rest) ∧ whole ≠ [] ∧
      (∀ d ds, whole ≠ 0 :: d :: ds) ∧ readFraction rest = some (fraction, rest') ∧
      readExponent rest' = some (exponent, r) ∧
      Number.ofLiteral ⟨minus, whole, fraction, exponent⟩ = some n := by
  unfold readNumber at read
  split at read
  · cases read
  · cases read
  · next whole rest some single span =>
    split at read
    · cases read
    · next fraction rest' point =>
      split at read
      · cases read
      · next exponent rest'' power =>
        obtain ⟨n, literal, same⟩ := Option.map_eq_some_iff.1 read
        cases same
        exact ⟨whole, rest, fraction, rest', exponent, span, some, single, point, power, literal⟩

/-- What has these parts is read as a number. -/
theorem readNumber_of_parts {minus : Bool} {cs rest rest' r : List Char} {n : Number}
    {whole : List Nat} {fraction : Option (List Nat)} {exponent : Option Int}
    (span : spanDigits cs = (whole, rest)) (digits : whole ≠ []) (single : ∀ d ds, whole ≠ 0 :: d :: ds)
    (point : readFraction rest = some (fraction, rest'))
    (power : readExponent rest' = some (exponent, r))
    (literal : Number.ofLiteral ⟨minus, whole, fraction, exponent⟩ = some n) :
    readNumber minus cs = some (n, r) := by
  unfold readNumber
  split
  · next none => exact absurd (congrArg Prod.fst (span.symm.trans none)) digits
  · next zero => exact absurd (congrArg Prod.fst (span.symm.trans zero)) (single _ _)
  · next same =>
    cases span.symm.trans same
    simp only [point, power, literal, Option.map_some]

/-- **A number** is read as far as it goes, whatever comes after it that does not go on with it. -/
theorem steady_readNumber (minus : Bool) : Steady Ends (readNumber minus) := by
  intro cs n r read
  obtain ⟨whole, rest, fraction, rest', exponent, span, some, single, point, power, literal⟩ :=
    exists_of_readNumber read
  obtain ⟨suffix, append⟩ := steady_spanDigits span
  obtain ⟨suffix', append'⟩ := steady_readFraction point
  obtain ⟨suffix'', append''⟩ := steady_readExponent power
  exact ⟨suffix''.trans (suffix'.trans suffix), fun x ends =>
    readNumber_of_parts (append x ends) some single (append' x ends) (append'' x ends) literal⟩

/-- A number begins with a digit, which is read. -/
theorem exists_cons_of_readNumber {minus : Bool} {cs r : List Char} {n : Number}
    (read : readNumber minus cs = some (n, r)) :
    ∃ c cs', cs = c :: cs' ∧ c.isDigit = true ∧ r <:+ cs' := by
  obtain ⟨whole, rest, fraction, rest', exponent, span, some, -, point, power, -⟩ :=
    exists_of_readNumber read
  obtain ⟨suffix, -⟩ := steady_readFraction point
  obtain ⟨suffix', -⟩ := steady_readExponent power
  obtain ⟨rfl, rfl⟩ := Prod.mk.inj span
  cases cs with
  | nil => exact absurd rfl some
  | cons c cs =>
    cases digit : c.isDigit with
    | false => simp [digit] at some
    | true =>
      rw [List.dropWhile_cons_of_pos digit] at suffix
      exact ⟨c, cs, rfl, digit, (suffix'.trans suffix).trans (List.dropWhile_suffix _)⟩

/-! ### Tokens -/

theorem readToken_of_isDigit {fuel : Nat} {c : Char} {cs : List Char} (digit : c.isDigit = true) :
    readToken fuel (c :: cs) = (readNumber false (c :: cs)).map fun r => (.number r.1, r.2) := by
  unfold readToken
  split
  case h_12 => rfl
  all_goals next same =>
    cases same
    cases digit

/-- **A token** is read off the front of a text, whatever comes after it that does not go on with
it. -/
theorem steady_readToken {fuel fuel' : Nat} (more : fuel ≤ fuel') {cs r : List Char} {t : Token}
    (read : readToken fuel cs = some (t, r)) :
    r.length < cs.length ∧ ∀ x, Ends x → readToken fuel' (cs ++ x) = some (t, r ++ x) := by
  unfold readToken at read
  split at read
  case h_10 =>
    -- a string
    obtain ⟨⟨s, r⟩, string, same⟩ := Option.map_eq_some_iff.1 read
    cases same
    obtain ⟨suffix, append⟩ := steady_readString more string
    exact ⟨Nat.lt_succ_of_le suffix.length_le, fun x _ => by simp [readToken, append x]⟩
  case h_11 =>
    -- a number with a sign
    obtain ⟨⟨n, r⟩, number, same⟩ := Option.map_eq_some_iff.1 read
    cases same
    obtain ⟨suffix, append⟩ := steady_readNumber _ number
    exact ⟨Nat.lt_succ_of_le suffix.length_le, fun x ends => by simp [readToken, append x ends]⟩
  case h_12 =>
    -- any other number
    obtain ⟨⟨n, r⟩, number, same⟩ := Option.map_eq_some_iff.1 read
    cases same
    obtain ⟨-, append⟩ := steady_readNumber _ number
    obtain ⟨c, cs, rfl, digit, suffix⟩ := exists_cons_of_readNumber number
    refine ⟨Nat.lt_succ_of_le suffix.length_le, fun x ends => ?_⟩
    rw [List.cons_append, readToken_of_isDigit digit, ← List.cons_append, append x ends]
    rfl
  all_goals
    cases read
    refine ⟨?_, fun x _ => rfl⟩
    simp only [List.length_cons]
    omega

end Steady

/-! ## Cutting -/

variable {cs x r : List Char} {t : Token} {ts us : List Token} {fuel fuel' : Nat}

theorem readTokens_of_blank (blank : cs.dropWhile isSpace = []) : readTokens (fuel + 1) cs = [] := by
  rw [readTokens, blank]

theorem readTokens_cons {c : Char} {rest : List Char} (front : cs.dropWhile isSpace = c :: rest)
    (read : readToken (fuel + 1) (c :: rest) = some (t, r)) :
    readTokens (fuel + 1) cs = t :: readTokens fuel r := by
  rw [readTokens, front]
  simp only [read]

/-- **A text that makes sense to its end** is cut into the same tokens whatever comes after it. -/
theorem readTokens_append (more : fuel ≤ fuel') (enough : cs.length < fuel)
    (enough' : cs.length + x.length < fuel') (sound : Token.fault ∉ readTokens fuel cs)
    (ends : Ends x) :
    ∃ left, x.length < left ∧
      readTokens fuel' (cs ++ x) = readTokens fuel cs ++ readTokens left x := by
  induction fuel generalizing cs fuel' with
  | zero => exact absurd enough (Nat.not_lt_zero _)
  | succ fuel ih =>
    obtain ⟨fuel', rfl⟩ := Nat.exists_eq_add_of_le' (Nat.le_trans (Nat.succ_pos fuel) more)
    cases front : cs.dropWhile isSpace with
    | nil =>
      have skipped : (cs ++ x).dropWhile isSpace = x.dropWhile isSpace :=
        List.dropWhile_append_of_pos (List.dropWhile_eq_nil_iff.1 front)
      refine ⟨fuel' + 1, Nat.lt_of_le_of_lt (Nat.le_add_left ..) enough', ?_⟩
      rw [readTokens_of_blank front, List.nil_append, readTokens, readTokens, skipped]
    | cons c rest =>
      have shorter : (c :: rest).length ≤ cs.length := front ▸ (List.dropWhile_suffix _).length_le
      have skipped : (cs ++ x).dropWhile isSpace = c :: (rest ++ x) := by
        rw [List.dropWhile_append, front]
        rfl
      cases read : readToken (fuel + 1) (c :: rest) with
      | none =>
        rw [readTokens, front] at sound
        simp [read] at sound
      | some token =>
        obtain ⟨t, r⟩ := token
        obtain ⟨shorter', append⟩ := steady_readToken more read
        rw [readTokens_cons front read, List.mem_cons, not_or] at sound
        obtain ⟨left, enough'', rest⟩ := ih (Nat.le_of_succ_le_succ more) (by omega) (by omega) sound.2
        refine ⟨left, enough'', ?_⟩
        rw [readTokens_cons skipped (append x ends), readTokens_cons front read, rest,
          List.cons_append]

/-- A text that makes sense to its end, and its tokens. -/
structure Cut (cs : List Char) (ts : List Token) : Prop where
  /-- it does make sense -/
  sound : Token.fault ∉ ts
  /-- these are its tokens, with as much fuel as one likes -/
  cut : ∀ fuel, cs.length < fuel → readTokens fuel cs = ts

/-- Nothing is cut into nothing. -/
theorem Cut.nil : Cut [] [] := ⟨nofun, fun fuel enough => by
  obtain ⟨fuel, rfl⟩ := Nat.exists_eq_add_of_le' enough
  exact readTokens_of_blank rfl⟩

theorem Cut.tokens_eq {s : String} (h : Cut s.toList ts) : tokens s = ts :=
  h.cut _ (Nat.lt_succ_self _)

theorem cut_tokens {s : String} (sound : Token.fault ∉ tokens s) : Cut s.toList (tokens s) := by
  refine ⟨sound, fun fuel enough => ?_⟩
  obtain ⟨left, some, same⟩ := readTokens_append (x := []) enough (Nat.lt_succ_self _) enough sound nofun
  rw [List.append_nil, Cut.nil.cut left some, List.append_nil] at same
  exact same

/-- **The tokens of two texts, one after the other,** are those of both. -/
theorem Cut.append (h : Cut cs ts) (h' : Cut x us) (ends : Ends x) : Cut (cs ++ x) (ts ++ us) := by
  refine ⟨fun fault => (List.mem_append.1 fault).elim h.sound h'.sound, fun fuel enough => ?_⟩
  rw [List.length_append] at enough
  have own := h.cut _ (Nat.lt_succ_self _)
  obtain ⟨left, some, same⟩ := readTokens_append (by omega) (Nat.lt_succ_self _) enough (own ▸ h.sound)
    ends
  rw [same, own, h'.cut left some]

/-- The tokens of a text are its first and those of what follows. -/
theorem Cut.cons {c : Char} {cs : List Char} (visible : isSpace c = false) (fine : t ≠ .fault)
    (read : ∀ fuel, (c :: cs).length ≤ fuel → readToken fuel (c :: cs) = some (t, r))
    (rest : Cut r ts) : Cut (c :: cs) (t :: ts) := by
  refine ⟨fun fault => (List.mem_cons.1 fault).elim (fun same => fine same.symm) rest.sound,
    fun fuel enough => ?_⟩
  obtain ⟨fuel, rfl⟩ := Nat.exists_eq_add_of_le' (Nat.zero_lt_of_lt enough)
  have first := read (fuel + 1) (Nat.le_of_lt enough)
  obtain ⟨shorter, -⟩ := steady_readToken (Nat.le_refl _) first
  rw [readTokens_cons (List.dropWhile_cons_of_neg (by simp [visible])) first, rest.cut fuel (by omega)]

end Tenure.Json
