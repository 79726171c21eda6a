import Tenure.Json.Document
import Tenure.Proofs.Json.Laws
import Tenure.Proofs.Json.Scalars

/-!
# Texts of documents

A value that is read off the front of tokens is read the same whatever tokens come after it, and
nothing that makes no sense is passed over. How much fuel it takes depends on how many tokens it has
(`Json.Sure`). So a text can be put together from texts of values (`Json.Written`), and is read as they
are: that is how the compact form of an object is read back (`Json.Written.object`).
-/

namespace Tenure.Json

variable {α : Type} {fuel fuel' room : Nat} {ts r : List Token} {v : Json}

/-- Whether some tokens are read off the front, none of which makes no sense, and this depends neither
on what comes after them nor on the fuel, as long as there is two for each. -/
def Sure (read : Nat → List Token → Option (α × List Token)) (fuel : Nat) : Prop :=
  ∀ ⦃ts a r⦄, read fuel ts = some (a, r) →
    r.length < ts.length ∧ (Token.fault ∈ ts → Token.fault ∈ r) ∧
    ∀ fuel' x, 2 * ts.length ≤ fuel' + 2 * r.length → read fuel' (ts ++ x) = some (a, r ++ x)

theorem sure_succ {read : Nat → List Token → Option (α × List Token)}
    (step : ∀ ts a r, read (fuel + 1) ts = some (a, r) →
      r.length < ts.length ∧ (Token.fault ∈ ts → Token.fault ∈ r) ∧
      ∀ fuel' x, 2 * ts.length ≤ fuel' + 1 + 2 * r.length →
        read (fuel' + 1) (ts ++ x) = some (a, r ++ x)) :
    Sure read (fuel + 1) := by
  intro ts a r own
  obtain ⟨shorter, sound, append⟩ := step ts a r own
  refine ⟨shorter, sound, fun fuel' x enough => ?_⟩
  obtain ⟨fuel', rfl⟩ : ∃ n, fuel' = n + 1 := Nat.exists_eq_add_of_le' (by omega)
  exact append fuel' x enough

/-- The value that a token is by itself, if it is one. -/
def Token.alone? : Token → Option Json
  | .null => some .null
  | .bool b => some (.bool b)
  | .number n => some (.number n)
  | .string s => some (.string s)
  | _ => none

theorem readValue_alone {t : Token} (alone : t.alone? = some v) (ts : List Token) :
    readValue (fuel + 1) room (t :: ts) = some (v, ts) := by
  cases t <;> cases alone <;> simp [readValue]

theorem readValue_openArray (some : ∀ us, ts ≠ .closeArray :: us) :
    readValue (fuel + 1) room (.openArray :: ts) =
      if room = 0 then none
      else (readItems fuel (room - 1) ts).map fun r => (.array r.1, r.2) := by
  rw [readValue]
  exact some

theorem readValue_openObject (some : ∀ us, ts ≠ .closeObject :: us) :
    readValue (fuel + 1) room (.openObject :: ts) =
      if room = 0 then none
      else (readMembers fuel (room - 1) ts).map fun r => (.object r.1, r.2) := by
  rw [readValue]
  exact some

/-- **A value** is a single token, or an array or object for which there is room, empty or not. -/
theorem readValue_cases (read : readValue (fuel + 1) room ts = some (v, r)) :
    (∃ t : Token, t.alone? = some v ∧ ts = t :: r) ∨
    (room ≠ 0 ∧ v = .array [] ∧ ts = .openArray :: .closeArray :: r) ∨
    (room ≠ 0 ∧ ∃ us vs, v = .array vs ∧ ts = .openArray :: us ∧ (∀ xs, us ≠ .closeArray :: xs) ∧
      readItems fuel (room - 1) us = some (vs, r)) ∨
    (room ≠ 0 ∧ v = .object [] ∧ ts = .openObject :: .closeObject :: r) ∨
    (room ≠ 0 ∧ ∃ us ms, v = .object ms ∧ ts = .openObject :: us ∧ (∀ xs, us ≠ .closeObject :: xs) ∧
      readMembers fuel (room - 1) us = some (ms, r)) := by
  unfold readValue at read
  split at read
  case h_5 =>
    split at read
    · cases read
    · next deep =>
      cases read
      exact .inr (.inl ⟨deep, rfl, rfl⟩)
  case h_6 us some =>
    split at read
    · cases read
    · next deep =>
      obtain ⟨⟨vs, r⟩, inner, same⟩ := Option.map_eq_some_iff.1 read
      cases same
      exact .inr (.inr (.inl ⟨deep, us, vs, rfl, rfl, some, inner⟩))
  case h_7 =>
    split at read
    · cases read
    · next deep =>
      cases read
      exact .inr (.inr (.inr (.inl ⟨deep, rfl, rfl⟩)))
  case h_8 us some =>
    split at read
    · cases read
    · next deep =>
      obtain ⟨⟨ms, r⟩, inner, same⟩ := Option.map_eq_some_iff.1 read
      cases same
      exact .inr (.inr (.inr (.inr ⟨deep, us, ms, rfl, rfl, some, inner⟩)))
  case h_9 => cases read
  all_goals
    cases read
    exact .inl ⟨_, rfl, rfl⟩

/-! ## What comes after does not matter -/

theorem readValue_nil : readValue fuel room [] = none := by
  cases fuel <;> simp [readValue]

theorem readItems_nil : readItems fuel room [] = none := by
  cases fuel <;> simp [readItems, readValue_nil]

theorem readMembers_nil : readMembers fuel room [] = none := by
  cases fuel <;> simp [readMembers]

/-- What does not begin with a token does not do so with more behind it either. -/
theorem append_ne_cons {t : Token} {x : List Token} (other : ∀ us, ts ≠ t :: us) (some : ts ≠ []) :
    ∀ us, ts ++ x ≠ t :: us := by
  cases ts with
  | nil => exact absurd rfl some
  | cons u ts =>
    intro us same
    cases same
    exact other ts rfl

theorem sure_readValue (items : ∀ room, Sure (fun fuel => readItems fuel room) fuel)
    (members : ∀ room, Sure (fun fuel => readMembers fuel room) fuel) (room : Nat) :
    Sure (fun fuel => readValue fuel room) (fuel + 1) := by
  refine sure_succ fun ts v r read => ?_
  obtain ⟨t, alone, rfl⟩ | ⟨deep, rfl, rfl⟩ | ⟨deep, us, vs, rfl, rfl, some, inner⟩ |
    ⟨deep, rfl, rfl⟩ | ⟨deep, us, ms, rfl, rfl, some, inner⟩ := readValue_cases read
  · have fine : Token.fault ≠ t := fun same => by cases same ▸ alone
    exact ⟨Nat.lt_succ_self _, fun fault => (List.mem_cons.1 fault).resolve_left fine,
      fun fuel' x _ => readValue_alone alone _⟩
  · exact ⟨by simp only [List.length_cons]; omega, by simp, fun fuel' x _ => by simp [readValue, deep]⟩
  · obtain ⟨shorter, sound, append⟩ := items _ inner
    refine ⟨Nat.lt_succ_of_lt shorter, by simpa using sound, fun fuel' x enough => ?_⟩
    rw [List.length_cons] at enough
    have some' : ∀ xs, us ++ x ≠ .closeArray :: xs :=
      append_ne_cons some fun none => by simp [none, readItems_nil] at inner
    simp [readValue_openArray some', deep, append fuel' x (by omega)]
  · exact ⟨by simp only [List.length_cons]; omega, by simp, fun fuel' x _ => by simp [readValue, deep]⟩
  · obtain ⟨shorter, sound, append⟩ := members _ inner
    refine ⟨Nat.lt_succ_of_lt shorter, by simpa using sound, fun fuel' x enough => ?_⟩
    rw [List.length_cons] at enough
    have some' : ∀ xs, us ++ x ≠ .closeObject :: xs :=
      append_ne_cons some fun none => by simp [none, readMembers_nil] at inner
    simp [readValue_openObject some', deep, append fuel' x (by omega)]

theorem sure_readItems (value : ∀ room, Sure (fun fuel => readValue fuel room) fuel)
    (items : ∀ room, Sure (fun fuel => readItems fuel room) fuel) (room : Nat) :
    Sure (fun fuel => readItems fuel room) (fuel + 1) := by
  refine sure_succ fun ts vs r read => ?_
  unfold readItems at read
  split at read
  · next v rest first =>
    cases read
    obtain ⟨shorter, sound, append⟩ := value _ first
    rw [List.length_cons] at shorter append
    refine ⟨by omega, by simpa using sound, fun fuel' x enough => ?_⟩
    simp [readItems, append fuel' x (by omega)]
  · next v rest first =>
    obtain ⟨⟨vs, r⟩, others, same⟩ := Option.map_eq_some_iff.1 read
    cases same
    obtain ⟨shorter, sound, append⟩ := value _ first
    obtain ⟨shorter', sound', append'⟩ := items _ others
    rw [List.length_cons] at shorter append
    dsimp only
    refine ⟨by omega, fun fault => sound' (by simpa using sound fault), fun fuel' x enough => ?_⟩
    simp [readItems, append fuel' x (by omega), append' fuel' x (by omega)]
  · cases read

theorem sure_readMembers (value : ∀ room, Sure (fun fuel => readValue fuel room) fuel)
    (members : ∀ room, Sure (fun fuel => readMembers fuel room) fuel) (room : Nat) :
    Sure (fun fuel => readMembers fuel room) (fuel + 1) := by
  refine sure_succ fun ts ms r read => ?_
  unfold readMembers at read
  split at read
  · split at read
    · next v rest first =>
      cases read
      obtain ⟨shorter, sound, append⟩ := value _ first
      simp only [List.length_cons] at shorter append ⊢
      refine ⟨by omega, by simpa using sound, fun fuel' x enough => ?_⟩
      simp [readMembers, append fuel' x (by omega)]
    · next v rest first =>
      obtain ⟨⟨ms, r⟩, others, same⟩ := Option.map_eq_some_iff.1 read
      cases same
      obtain ⟨shorter, sound, append⟩ := value _ first
      obtain ⟨shorter', sound', append'⟩ := members _ others
      simp only [List.length_cons] at shorter append ⊢
      refine ⟨by omega, fun fault => sound' ?_, fun fuel' x enough => ?_⟩
      · simpa using sound (by simpa using fault)
      · simp [readMembers, append fuel' x (by omega), append' fuel' x (by omega)]
    · cases read
  · cases read

/-- **Values, items and members** are read the same whatever comes after them. -/
theorem sure_read (fuel : Nat) :
    (∀ room, Sure (fun fuel => readValue fuel room) fuel) ∧
    (∀ room, Sure (fun fuel => readItems fuel room) fuel) ∧
    ∀ room, Sure (fun fuel => readMembers fuel room) fuel := by
  induction fuel with
  | zero =>
    refine ⟨fun room ts a r read => ?_, fun room ts a r read => ?_, fun room ts a r read => ?_⟩
    · simp [readValue] at read
    · simp [readItems] at read
    · simp [readMembers] at read
  | succ fuel ih =>
    obtain ⟨value, items, members⟩ := ih
    exact ⟨sure_readValue items members, sure_readItems value items,
      sure_readMembers value members⟩

/-- **A value is read** with any fuel that its tokens take. -/
theorem readValue_of_readValue (read : readValue fuel room ts = some (v, r))
    (enough : 2 * ts.length ≤ fuel' + 2 * r.length) : readValue fuel' room ts = some (v, r) := by
  obtain ⟨-, -, append⟩ := (sure_read fuel).1 room read
  simpa using append fuel' [] enough

/-! ## Texts of values -/

/-- Whether a text is that of a value, in which containers nest to a depth of `room` at most. -/
def Written (room : Nat) (s : String) (v : Json) : Prop :=
  readValue (2 * (tokens s).length + 1) room (tokens s) = some (v, [])

theorem ofText?_eq_some_iff {s : String} : ofText? s = some v ↔ Written maxDepth s v := by
  rw [ofText?, Written]
  split
  · next w read => simp [read]
  · next other =>
    exact iff_of_false nofun fun read => other v read

namespace Written

variable {s : String}

/-- Such a text makes sense to its end. -/
theorem cut (h : Written room s v) : Cut s.toList (tokens s) :=
  cut_tokens fun fault => nomatch ((sure_read _).1 room h).2.1 fault

/-- **A value** is read off the front of any tokens that begin with its own. -/
theorem readValue_append (h : Written room s v) (x : List Token)
    (enough : 2 * (tokens s).length ≤ fuel) : readValue fuel room (tokens s ++ x) = some (v, x) :=
  ((sure_read _).1 room h).2.2 fuel x enough

theorem of_cut_string {k : String} (h : Cut s.toList [.string k]) : Written room s (.string k) := by
  rw [Written, h.tokens_eq]
  rfl

theorem of_cut_number {n : Number} (h : Cut s.toList [.number n]) : Written room s (.number n) := by
  rw [Written, h.tokens_eq]
  rfl

/-- What contains no other value is one token, and there is always room for that. -/
theorem of_plain (h : Written room s v) (plain : v.Plain) (room' : Nat) : Written room' s v := by
  rw [Written] at h
  obtain ⟨t, alone, single⟩ | ⟨-, rfl, -⟩ | ⟨-, us, vs, rfl, -⟩ | ⟨-, rfl, -⟩ |
    ⟨-, us, ms, rfl, -⟩ := readValue_cases h
  · rw [Written, single]
    exact readValue_alone alone []
  all_goals cases plain

end Written

/-! ## The compact form of objects -/

/-- The tokens of the members after the first, and of the closing brace. -/
def memberTokens : List (String × Json) → List Token
  | [] => [.closeObject]
  | m :: ms => .comma :: .string m.1 :: .colon :: (tokens m.2.compact ++ memberTokens ms)

section Objects

variable {m : String × Json} {ms : List (String × Json)}

/-- What comes after a value does not go on with a number. -/
theorem ends_compactMembers (ms : List (String × Json)) : Ends (compactMembers ms).toList := by
  cases ms with
  | nil => simp [compactMembers, Ends]
  | cons m ms => simp [compactMembers, Ends]

/-- The tokens of a member and of what comes after it. -/
theorem cut_member (own : Written room m.2.compact m.2)
    (others : Cut (compactMembers ms).toList (memberTokens ms)) :
    Cut (writeString m.1 ++ ":" ++ m.2.compact ++ compactMembers ms).toList
      (.string m.1 :: .colon :: (tokens m.2.compact ++ memberTokens ms)) := by
  have value := own.cut.append others (ends_compactMembers ms)
  have colon := Cut.cons (t := .colon) (c := ':') (by decide) nofun (fun fuel _ => rfl) value
  have name := (cut_writeString m.1).append colon (by simp [Ends])
  simpa using name

theorem cut_compactMembers (written : ∀ m ∈ ms, Written room m.2.compact m.2) :
    Cut (compactMembers ms).toList (memberTokens ms) := by
  induction ms with
  | nil => exact Cut.cons (c := '\x7d') (by decide) nofun (fun fuel _ => rfl) Cut.nil
  | cons m ms ih =>
    obtain ⟨own, others⟩ := List.forall_mem_cons.1 written
    have comma := Cut.cons (t := .comma) (c := ',') (by decide) nofun (fun fuel _ => rfl)
      (cut_member own (ih others))
    simpa [compactMembers, memberTokens] using comma

/-- Members are read from the tokens of their compact form. -/
theorem readMembers_memberTokens (own : Written room m.2.compact m.2)
    (others : ∀ m ∈ ms, Written room m.2.compact m.2)
    (enough : 2 * (tokens m.2.compact ++ memberTokens ms).length < fuel) :
    readMembers fuel room (.string m.1 :: .colon :: (tokens m.2.compact ++ memberTokens ms)) =
      some (m :: ms, []) := by
  induction ms generalizing m fuel with
  | nil =>
    obtain ⟨fuel, rfl⟩ := Nat.exists_eq_add_of_le' (Nat.zero_lt_of_lt enough)
    rw [List.length_append] at enough
    simp [readMembers, memberTokens, own.readValue_append _ (show _ ≤ fuel by omega)]
  | cons m' ms ih =>
    obtain ⟨fuel, rfl⟩ := Nat.exists_eq_add_of_le' (Nat.zero_lt_of_lt enough)
    obtain ⟨next, others⟩ := List.forall_mem_cons.1 others
    simp only [memberTokens, List.length_append, List.length_cons] at enough
    have rest : readMembers fuel room _ = some (m' :: ms, []) :=
      ih next others (by rw [List.length_append]; omega)
    simp [readMembers, memberTokens, own.readValue_append _ (show _ ≤ fuel by omega), rest]

/-- **The compact form of an object** is a text of it, if that of each value is. -/
theorem Written.object (written : ∀ m ∈ ms, Written room m.2.compact m.2) :
    Written (room + 1) (compact (.object ms)) (.object ms) := by
  cases ms with
  | nil =>
    have tokens : tokens (compact (.object [])) = [.openObject, .closeObject] := rfl
    simp [Written, tokens, readValue]
  | cons m ms =>
    obtain ⟨own, others⟩ := List.forall_mem_cons.1 written
    have cut := Cut.cons (t := .openObject) (c := '\x7b') (by decide) nofun (fun fuel _ => rfl)
      (cut_member own (cut_compactMembers others))
    have tokens : tokens (compact (.object (m :: ms))) = .openObject :: .string m.1 :: .colon ::
        (tokens m.2.compact ++ memberTokens ms) := by
      refine Cut.tokens_eq ?_
      simpa [compact] using cut
    rw [Written, tokens, readValue_openObject (by simp), if_neg (Nat.succ_ne_zero _),
      Nat.add_sub_cancel, readMembers_memberTokens own others]
    · rfl
    · simp only [List.length_cons]
      omega

end Objects

end Tenure.Json
