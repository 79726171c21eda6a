import Tenure.Json.Reader
import Tenure.Proofs.Fallible
import Tenure.Proofs.Json.Documents

/-!
# The library that can be run keeps its promises

Fields are put into cells one member after the other, and in the end every cell is full if and only if
there was one member of each name (`Json.Cells.fill_eq_ok_iff`). The tag is found wherever it stands,
also behind values that nobody asked for, since a value is cut off where it ends
(`Json.Tagged.ofText_eq`).

So the reader does what is promised of a library (`Json.lawful_library`).
-/

namespace Tenure.Json

/-! ## Scalars -/

/-- **A value is read** from what stands for it. -/
theorem Scalar.read_toJson (type : Scalar) (x : type.Value) : type.read (type.toJson x) = .ok x := by
  cases type with
  | u32 =>
    have small : (UInt32.toUInt64 x).toNat < UInt32.size := by
      rw [UInt32.toNat_toUInt64]
      exact UInt32.toNat_lt x
    rw [read, toJson, wordOf, if_pos small]
    simp [Except.map]
  | u64 =>
    rw [read, toJson, wordOf, if_pos (UInt64.toNat_lt x)]
    simp [Except.map]
  | f64 => rfl

/-! ## Fields -/

namespace Cells

variable {fs : List Field} {cells : Cells fs} {row : Row fs} {m : String × Json}
  {ms : List (String × Json)}

/-- Whether cells and members together give a value for each of the fields. -/
def Fill : {fs : List Field} → Cells fs → List (String × Json) → Row fs → Prop
  | [], _, _, _ => True
  | f :: _, (o, cells), ms, (x, row) =>
    o.toList.map Except.ok ++ (named f.name ms).map f.type.read = [.ok x] ∧ Fill cells ms row

theorem row_eq_ok_iff : cells.row = .ok row ↔ cells.Fill [] row := by
  induction fs with
  | nil => exact iff_of_true rfl trivial
  | cons f fs ih =>
    obtain ⟨o, cells⟩ := cells
    obtain ⟨x, row⟩ := row
    cases o with
    | none => simp [Cells.row, Fill]
    | some y => simp [Cells.row, Fill, map_eq_ok_iff, ← ih, and_comm]

/-- A member of another name adds nothing. -/
theorem fill_cons_of_notMem (other : m.1 ∉ fs.map Field.name) :
    cells.Fill (m :: ms) row ↔ cells.Fill ms row := by
  induction fs with
  | nil => rfl
  | cons f fs ih =>
    obtain ⟨o, cells⟩ := cells
    obtain ⟨x, row⟩ := row
    obtain ⟨first, others⟩ := not_or.1 (mt List.mem_cons.2 other)
    rw [Fill, Fill, named_cons, if_neg first, ih others]

/-- To take in a member is to have it among them. -/
theorem exists_put_iff (apart : (fs.map Field.name).Nodup) :
    (∃ cells', cells.put m = .ok cells' ∧ cells'.Fill ms row) ↔ cells.Fill (m :: ms) row := by
  induction fs with
  | nil => exact iff_of_true ⟨_, rfl, trivial⟩ trivial
  | cons f fs ih =>
    obtain ⟨o, cells⟩ := cells
    obtain ⟨x, row⟩ := row
    obtain ⟨absent, apart⟩ := List.nodup_cons.1 apart
    unfold put
    by_cases own : m.1 = f.name
    · have others : cells.Fill (m :: ms) row ↔ cells.Fill ms row :=
        fill_cons_of_notMem (own ▸ absent)
      cases o with
      | some y => simp [own, Fill]
      | none =>
        cases read : f.type.read m.2 with
        | error e => simp [own, Fill, read, Except.map]
        | ok y => simp [own, Fill, read, Except.map, others]
    · simp only [own, if_false, map_eq_ok_iff, Fill, named_cons, ← ih apart]
      constructor
      · rintro ⟨_, ⟨cells', put, rfl⟩, first, others⟩
        exact ⟨first, cells', put, others⟩
      · rintro ⟨first, cells', put, others⟩
        exact ⟨_, ⟨cells', put, rfl⟩, first, others⟩

/-- **One member after the other** is taken in until every cell is full. -/
theorem fill_eq_ok_iff (apart : (fs.map Field.name).Nodup) :
    cells.fill ms = .ok row ↔ cells.Fill ms row := by
  induction ms generalizing cells with
  | nil => exact row_eq_ok_iff
  | cons m ms ih =>
    rw [fill, ← exists_put_iff apart]
    cases cells.put m with
    | error e => simp
    | ok cells' => simp [ih]

theorem fill_empty : (empty fs).Fill ms row ↔ library.Gives ms row := by
  induction fs with
  | nil => rfl
  | cons f fs ih =>
    obtain ⟨x, row⟩ := row
    exact and_congr Iff.rfl ih

end Cells

/-! ## Objects -/

namespace Tagged

variable {α : Type} {type : Tagged α} {v : Variant α} {found : Option (Variant α)}
  {done ms fs : List (String × Json)} {ts r : List Token} {x : α}

/-- The variant that a value names. -/
def tagOf (type : Tagged α) : Json → Except ReadFault (Variant α)
  | .string s =>
    match type.variant? s with
    | some v => .ok v
    | none => .error (.unknownVariant s (type.variants.map Variant.name))
  | d => .error (.invalidType d.described "variant identifier")

theorem tagOf_eq_ok_iff {d : Json} :
    type.tagOf d = .ok v ↔ d = .string v.name ∧ type.variant? v.name = some v := by
  cases d with
  | string s =>
    rw [tagOf, Json.string.injEq]
    cases known : type.variant? s with
    | none =>
      refine iff_of_false nofun ?_
      rintro ⟨rfl, found⟩
      cases known.symm.trans found
    | some w =>
      have name : w.name = s := by simpa using List.find?_some known
      constructor
      · rintro ⟨⟩
        exact ⟨name.symm, name ▸ known⟩
      · rintro ⟨rfl, found⟩
        rw [Option.some.inj (known.symm.trans found)]
  | _ => exact iff_of_false nofun fun ⟨same, _⟩ => nomatch same

/-- What was read once a member was read as well; `found` and `done` are what was read before, the
last member first. -/
def take (type : Tagged α) (found : Option (Variant α)) (done : List (String × Json))
    (m : String × Json) : Except ReadFault (Option (Variant α) × List (String × Json)) :=
  if m.1 = type.tag then
    match found with
    | some _ => .error (.duplicateField type.tag)
    | none => (type.tagOf m.2).map fun v => (some v, done)
  else .ok (found, m :: done)

/-- The variant that is named among members, and the other members. -/
def collect (type : Tagged α) : Option (Variant α) → List (String × Json) → List (String × Json) →
    Except ReadFault (Variant α × List (String × Json))
  | found, done, [] =>
    match found with
    | none => .error (.missingField type.tag)
    | some v => .ok (v, done.reverse)
  | found, done, m :: ms =>
    match type.take found done m with
    | .ok (found, done) => collect type found done ms
    | .error e => .error e

/-- **A variant** is named if and only if one member does it, which is then left out. -/
theorem collect_eq_ok_iff :
    type.collect found done ms = .ok (v, fs) ↔
      found.toList.map Except.ok ++ (named type.tag ms).map type.tagOf = [.ok v] ∧
      fs = done.reverse ++ ms.filter fun m => m.1 ≠ type.tag := by
  induction ms generalizing found done with
  | nil => cases found <;> simp [collect, eq_comm]
  | cons m ms ih =>
    rw [collect]
    unfold take
    by_cases own : m.1 = type.tag
    · cases found with
      | some w => simp [own]
      | none =>
        cases read : type.tagOf m.2 with
        | error e => simp [own, read, Except.map]
        | ok w => simp [own, read, Except.map, ih]
    · simp [own, ih]

/-- The value of the tag is read where it stands. -/
theorem readTag_of_readValue {fuel room : Nat} {d : Json}
    (read : readValue fuel room ts = some (d, r)) :
    type.readTag ts = (type.tagOf d).map fun v => (v, r) := by
  cases fuel with
  | zero => simp [readValue] at read
  | succ fuel =>
    obtain ⟨t, alone, rfl⟩ | ⟨-, rfl, rfl⟩ | ⟨-, us, vs, rfl, rfl, -⟩ | ⟨-, rfl, rfl⟩ |
      ⟨-, us, ms, rfl, rfl, -⟩ := readValue_cases read
    · cases t with
      | string s =>
        cases alone
        simp only [readTag, tagOf]
        cases type.variant? s <;> rfl
      | null | bool b | number n =>
        cases alone
        rfl
      | _ => cases alone
    all_goals rfl

/-- One member after the other is read where it stands. -/
theorem readObject_cons {k : String} {d : Json} {fuel : Nat} (value : readInner ts = some (d, r)) :
    type.readObject (fuel + 1) found done (.string k :: .colon :: ts) =
      match (type.take found done (k, d)).map fun taken => (taken.1, taken.2, r) with
      | .error e => .error e
      | .ok (found, done, .comma :: ts) => type.readObject fuel found done ts
      | .ok (some v, done, .closeObject :: ts) => .ok (v, .members done.reverse, ts)
      | .ok (none, _, .closeObject :: _) => .error (.missingField type.tag)
      | .ok _ => .error .malformed := by
  have tagged : type.readTag ts = (type.tagOf d).map fun v => (v, r) := readTag_of_readValue value
  conv => lhs; unfold readObject
  unfold take
  by_cases own : k = type.tag
  · cases found with
    | some v => simp only [own, if_true, Except.map]
    | none =>
      simp only [own, if_true, tagged]
      cases type.tagOf d <;> rfl
  · simp only [own, if_false, value]
    rfl

/-- **The members of an object** are read up to its end. -/
theorem readObject_eq {fuel fuel' : Nat} (read : readMembers fuel (maxDepth - 1) ts = some (ms, r))
    (enough : ts.length < fuel') :
    type.readObject fuel' found done ts =
      (type.collect found done ms).map fun taken => (taken.1, .members taken.2, r) := by
  induction fuel generalizing ts ms found done fuel' with
  | zero => simp [readMembers] at read
  | succ fuel ih =>
    obtain ⟨fuel', rfl⟩ := Nat.exists_eq_add_of_le' (Nat.zero_lt_of_lt enough)
    unfold readMembers at read
    split at read
    · next k ts =>
      have inner : ∀ d r, readValue fuel (maxDepth - 1) ts = some (d, r) →
          r.length < ts.length ∧ readInner ts = some (d, r) := fun d r value =>
        ⟨((sure_read fuel).1 _ value).1, readValue_of_readValue value (by omega)⟩
      split at read
      · next d rest value =>
        cases read
        rw [readObject_cons (inner _ _ value).2, collect]
        cases type.take found done (k, d) with
        | error e => rfl
        | ok taken =>
          obtain ⟨found, done⟩ := taken
          cases found <;> rfl
      · next d rest value =>
        obtain ⟨⟨ms, r⟩, others, same⟩ := Option.map_eq_some_iff.1 read
        cases same
        obtain ⟨shorter, value⟩ := inner _ _ value
        rw [readObject_cons value, collect]
        cases type.take found done (k, d) with
        | error e => rfl
        | ok taken =>
          refine ih others ?_
          simp only [List.length_cons] at enough shorter
          omega
      · cases read
    · cases read

/-- **Reading the text of an object** is reading its members. -/
theorem ofText_eq {s : String} (text : ofText? s = some (.object ms)) :
    type.ofText s = match type.collect none [] ms with
      | .ok (v, fs) => type.build v (.members fs)
      | .error e => .error e := by
  obtain ⟨t, alone, -⟩ | ⟨-, same, -⟩ | ⟨-, us, vs, same, -⟩ | ⟨-, same, single⟩ |
    ⟨-, us, ms', same, split, some, inner⟩ := readValue_cases (ofText?_eq_some_iff.1 text)
  · cases t <;> cases alone
  · cases same
  · cases same
  · cases same
    rw [ofText, single]
    rfl
  · cases same
    have whole : type.readObject (us.length + 1) none [] us = _ :=
      readObject_eq inner (Nat.lt_succ_self us.length)
    rw [ofText, split, readTokens, whole]
    · cases type.collect none [] ms with
      | error e => rfl
      | ok taken =>
        simp only [Except.map]
        cases type.build taken.1 (.members taken.2) <;> rfl
    · exact some

/-- **A value is read** from an object in which one member is the tag and the others give its
fields. -/
theorem ofText_eq_ok_iff {s : String} (text : ofText? s = some (.object ms)) :
    type.ofText s = .ok x ↔ ∃ v row, named type.tag ms = [.string v.name] ∧
      type.variant? v.name = some v ∧
      library.fields v.fields (ms.filter fun m => m.1 ≠ type.tag) = .ok row ∧ v.make row = x := by
  have parts : type.ofText s = .ok x ↔
      ∃ v fs, type.collect none [] ms = .ok (v, fs) ∧ type.build v (.members fs) = .ok x := by
    rw [ofText_eq text]
    rcases type.collect none [] ms with e | ⟨v, fs⟩ <;> simp
  have tagged : ∀ v, (named type.tag ms).map type.tagOf = [.ok v] ↔
      named type.tag ms = [.string v.name] ∧ type.variant? v.name = some v := by
    intro v
    simp only [List.map_eq_singleton_iff, tagOf_eq_ok_iff]
    constructor
    · rintro ⟨d, only, rfl, found⟩
      exact ⟨only, found⟩
    · rintro ⟨only, found⟩
      exact ⟨_, only, rfl, found⟩
  simp only [parts, collect_eq_ok_iff, build, map_eq_ok_iff, Option.toList_none, List.map_nil,
    List.nil_append, List.reverse_nil, tagged]
  constructor
  · rintro ⟨v, _, ⟨⟨only, found⟩, rfl⟩, row, filled, rfl⟩
    exact ⟨v, row, only, found, filled, rfl⟩
  · rintro ⟨v, row, only, found, filled, rfl⟩
    exact ⟨v, _, ⟨⟨only, found⟩, rfl⟩, row, filled, rfl⟩

end Tagged

/-! ## The laws -/

/-- **The library that can be run** keeps the promises of one. -/
theorem lawful_library : library.Lawful where
  text_string s := by
    refine ofText?_eq_some_iff.2 (.of_cut_string ?_)
    simpa only [library, compact] using cut_writeString s
  text_natural n := by
    refine ofText?_eq_some_iff.2 (.of_cut_number ?_)
    simpa only [library, compact] using cut_writeNumber_natural n
  text_object ms back := ofText?_eq_some_iff.2 <| Written.object fun m hm =>
    (ofText?_eq_some_iff.1 (back m hm).2).of_plain (back m hm).1 _
  scalar_toJson type x _ := type.read_toJson x
  fields_eq_ok_iff fs apart ms row := (Cells.fill_eq_ok_iff apart).trans Cells.fill_empty
  read_eq_ok_iff type s ms text x := Tagged.ofText_eq_ok_iff text
  write_eq type x := rfl

end Tenure.Json
