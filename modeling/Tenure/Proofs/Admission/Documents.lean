import Tenure.Admission.ConfigText
import Tenure.Proofs.Json.Laws
import Tenure.Proofs.Json.Reading

/-!
# Limiter configurations survive being written

A configuration is an object of three members: its algorithm and two fields
(`LimiterConfig.members_schema`). Any library that keeps its promises reads it from that object,
however the members are ordered and whatever others are among them
(`LimiterConfig.ofText_of_perm`), and reads nothing of the kind once one of the three is dropped or
repeated (`LimiterConfig.ofText_of_count`).

Configurations are therefore read back from what they are written as
(`LimiterConfig.survives_writing`).
-/

namespace Tenure.LimiterConfig

open Json (Variant Row)

variable {lib : Json.Library} {c : LimiterConfig} {k s : String} {ms extras : List (String × Json)}

/-! ## Members -/

/-- The name of the algorithm of a configuration. -/
def algorithm : LimiterConfig → String
  | tokenBucket .. => "token_bucket"
  | fixedWindow .. => "fixed_window"
  | slidingWindowLog .. => "sliding_window_log"

/-- The two fields of a configuration. -/
def fields : LimiterConfig → List (String × Json)
  | tokenBucket capacity rate =>
    [("capacity", .number (.natural capacity.toUInt64)), ("refill_per_sec", .number (.real rate))]
  | fixedWindow maxRequests windowMillis | slidingWindowLog maxRequests windowMillis =>
    [("max_requests", .number (.natural maxRequests.toUInt64)),
      ("window_ms", .number (.natural windowMillis))]

/-- Its members: the algorithm and the two fields. -/
def members (c : LimiterConfig) : List (String × Json) :=
  ("algorithm", .string c.algorithm) :: c.fields

/-- Whether the rate of a configuration, if it has one, is a finite number. -/
def RateFinite : LimiterConfig → Prop
  | tokenBucket _ rate => rate.isFinite = true
  | _ => True

/-- Whether the rate of a configuration, if it has one, is read back from its text. -/
def RateReadsBack (lib : Json.Library) : LimiterConfig → Prop
  | tokenBucket _ rate =>
    lib.document? (lib.text (.number (.real rate))) = some (.number (.real rate))
  | _ => True

theorem members_schema (c : LimiterConfig) : schema.members c = c.members := by
  cases c <;> rfl

/-- No two names in a configuration are the same, whichever it is. -/
theorem apart_schema : schema.Apart where
  variants := by decide
  fields := by
    simp only [schema, List.forall_mem_cons, List.not_mem_nil, false_implies, implies_true, and_true]
    decide

/-- A configuration is one of the variants, with a row of its fields. -/
theorem exists_variant (c : LimiterConfig) :
    ∃ v ∈ schema.variants, ∃ row : Row v.fields, v.name = c.algorithm ∧ v.make row = c ∧
      schema.entries v row = c.members ∧ (c.RateFinite → row.Finite) := by
  cases c with
  | tokenBucket capacity rate =>
    exact ⟨_, .head _, (capacity, rate, ()), rfl, rfl, rfl, fun finite => ⟨trivial, finite, trivial⟩⟩
  | fixedWindow maxRequests windowMillis =>
    exact ⟨_, .tail _ (.head _), (maxRequests, windowMillis, ()), rfl, rfl, rfl,
      fun _ => ⟨trivial, trivial, trivial⟩⟩
  | slidingWindowLog maxRequests windowMillis =>
    exact ⟨_, .tail _ (.tail _ (.head _)), (maxRequests, windowMillis, ()), rfl, rfl, rfl,
      fun _ => ⟨trivial, trivial, trivial⟩⟩

/-! ## Reading -/

/-- Whether members give a configuration: there is one with its algorithm, and one of the name of each
of its fields from which that is read. -/
def GivenBy (lib : Json.Library) (ms : List (String × Json)) : LimiterConfig → Prop
  | tokenBucket capacity rate =>
    Json.named "algorithm" ms = [.string "token_bucket"] ∧
    (Json.named "capacity" ms).map (lib.scalar .u32) = [.ok capacity] ∧
    (Json.named "refill_per_sec" ms).map (lib.scalar .f64) = [.ok rate]
  | fixedWindow maxRequests windowMillis =>
    Json.named "algorithm" ms = [.string "fixed_window"] ∧
    (Json.named "max_requests" ms).map (lib.scalar .u32) = [.ok maxRequests] ∧
    (Json.named "window_ms" ms).map (lib.scalar .u64) = [.ok windowMillis]
  | slidingWindowLog maxRequests windowMillis =>
    Json.named "algorithm" ms = [.string "sliding_window_log"] ∧
    (Json.named "max_requests" ms).map (lib.scalar .u32) = [.ok maxRequests] ∧
    (Json.named "window_ms" ms).map (lib.scalar .u64) = [.ok windowMillis]

/-- **The text of an object** is read as a configuration if and only if its members give it. -/
theorem ofText_eq_ok_iff (laws : lib.Lawful) (text : lib.document? s = some (.object ms)) :
    ofText lib s = .ok c ↔ GivenBy lib ms c := by
  rw [ofText, laws.read_eq_ok_iff_gives apart_schema text]
  constructor
  · rintro ⟨v, own, row, tag, given, rfl⟩
    simp only [schema, List.mem_cons, List.not_mem_nil, or_false] at own
    obtain rfl | rfl | rfl := own <;> exact ⟨tag, given.1, given.2.1⟩
  · intro given
    cases c with
    | tokenBucket capacity rate =>
      exact ⟨_, .head _, (capacity, rate, ()), given.1, ⟨given.2.1, given.2.2, trivial⟩, rfl⟩
    | fixedWindow maxRequests windowMillis =>
      exact ⟨_, .tail _ (.head _), (maxRequests, windowMillis, ()), given.1,
        ⟨given.2.1, given.2.2, trivial⟩, rfl⟩
    | slidingWindowLog maxRequests windowMillis =>
      exact ⟨_, .tail _ (.tail _ (.head _)), (maxRequests, windowMillis, ()), given.1,
        ⟨given.2.1, given.2.2, trivial⟩, rfl⟩

/-- **Members in any order,** with others among them, are read as the configuration. -/
theorem ofText_of_perm (laws : lib.Lawful) (finite : c.RateFinite)
    (text : lib.document? s = some (.object ms)) (same : ms.Perm (c.members ++ extras))
    (foreign : ∀ m ∈ extras, m.1 ∉ c.members.map Prod.fst) : ofText lib s = .ok c := by
  obtain ⟨v, own, row, -, rfl, entries, finite'⟩ := exists_variant c
  rw [← entries] at same foreign
  rw [Json.Tagged.map_entries] at foreign
  exact laws.read_of_perm apart_schema own (finite' finite) text same foreign

/-- **A member dropped or repeated** leaves nothing to be read, unless another algorithm is named. -/
theorem ofText_of_count (laws : lib.Lawful) (text : lib.document? s = some (.object ms))
    (known : k ∈ c.members.map Prod.fst) (other : (ms.map Prod.fst).count k ≠ 1)
    (tag : k = "algorithm" ∨ ("algorithm", .string c.algorithm) ∈ ms) :
    ∃ e, ofText lib s = .error e := by
  obtain ⟨v, own, row, name, -, entries, -⟩ := exists_variant c
  rw [← entries, Json.Tagged.map_entries] at known
  rw [← name] at tag
  exact laws.read_of_count apart_schema own text known other tag

/-! ## Writing -/

/-- **The written form** is an object of the members. -/
theorem document?_text (laws : lib.Lawful) (rate : c.RateReadsBack lib) :
    lib.document? (c.text lib) = some (.object c.members) := by
  rw [← members_schema]
  refine laws.document?_write ?_
  rw [members_schema]
  refine List.forall_mem_cons.2 ⟨⟨trivial, laws.text_string _⟩, ?_⟩
  cases c with
  | tokenBucket capacity r =>
    simpa [fields, Json.Plain] using ⟨laws.text_natural _, rate⟩
  | fixedWindow maxRequests windowMillis | slidingWindowLog maxRequests windowMillis =>
    simpa [fields, Json.Plain] using ⟨laws.text_natural _, laws.text_natural _⟩

/-- **Configurations survive being written,** whatever the library, as long as it keeps its promises.
The written form is an object of the algorithm and the two fields, and it is read as the
configuration, provided that the rate of a token bucket can be read back. Every text of an object that
has these members in whatever order, with others of whatever other names among them, is read as the
same configuration. An object in which one of them is dropped or repeated is refused, whatever else is
in it, as long as it does not ask for another algorithm. -/
theorem survives_writing (laws : lib.Lawful) (c : LimiterConfig) (finite : c.RateFinite) :
    (c.RateReadsBack lib → ofText lib (c.text lib) = .ok c ∧
      lib.document? (c.text lib) = some (.object c.members)) ∧
    ∀ s ms, lib.document? s = some (.object ms) →
      (∀ extras, ms.Perm (c.members ++ extras) →
        (∀ m ∈ extras, m.1 ∉ c.members.map Prod.fst) → ofText lib s = .ok c) ∧
      ∀ k ∈ c.members.map Prod.fst, (ms.map Prod.fst).count k ≠ 1 →
        k = "algorithm" ∨ ("algorithm", .string c.algorithm) ∈ ms →
        ∃ e, ofText lib s = .error e := by
  refine ⟨fun rate => ?_, fun s ms text => ⟨fun extras same foreign => ?_, fun k known other tag => ?_⟩⟩
  · have text := document?_text laws rate
    have alone : c.members.Perm (c.members ++ []) := by rw [List.append_nil]
    exact ⟨ofText_of_perm laws finite text alone nofun, text⟩
  · exact ofText_of_perm laws finite text same foreign
  · exact ofText_of_count laws text known other tag

/-- A remark that no configuration asks for. -/
def remark : Json := .array [.object [("by", .array [.null])]]

/-- A bucket as somebody might type it: a remark in front, the algorithm last. -/
def typedBucket : String :=
  "\x7b\"remark\": [\x7b\"by\": [null]\x7d], \"refill_per_sec\": 2.5, \"capacity\" : 10,
\"algo\\u0072ithm\":\"token_bucket\"\x7d"

/-- Its capacity, given once more. -/
def typedAgain : String :=
  "\x7b\"capacity\":11, \"refill_per_sec\": 2.5, \"capacity\" : 10, \"algorithm\":\"token_bucket\"\x7d"

theorem document?_typedBucket :
    Json.library.document? typedBucket =
      some (.object (("remark", remark) :: (tokenBucket 10 2.5).members.reverse)) := by
  have tokens : Json.tokens typedBucket =
      [.openObject, .string "remark", .colon, .openArray, .openObject, .string "by", .colon,
        .openArray, .null, .closeArray, .closeObject, .closeArray, .comma,
        .string "refill_per_sec", .colon, .number (.real 2.5), .comma,
        .string "capacity", .colon, .number (.natural 10), .comma,
        .string "algorithm", .colon, .string "token_bucket", .closeObject] := rfl
  simp [Json.library, Json.ofText?, tokens, Json.maxDepth, Json.readValue, Json.readItems,
    Json.readMembers, remark, members, fields, algorithm]

theorem document?_typedAgain :
    Json.library.document? typedAgain = some (.object
      (("capacity", .number (.natural 11)) :: (tokenBucket 10 2.5).members.reverse)) := by
  have tokens : Json.tokens typedAgain =
      [.openObject, .string "capacity", .colon, .number (.natural 11), .comma,
        .string "refill_per_sec", .colon, .number (.real 2.5), .comma,
        .string "capacity", .colon, .number (.natural 10), .comma,
        .string "algorithm", .colon, .string "token_bucket", .closeObject] := rfl
  simp [Json.library, Json.ofText?, tokens, Json.maxDepth, Json.readValue, Json.readMembers,
    members, fields, algorithm]

/-- So it is with a bucket that is typed in; with its capacity given twice it is refused. -/
theorem survives_writing_of_typed :
    (tokenBucket 10 2.5).RateReadsBack Json.library ∧
    ofText Json.library ((tokenBucket 10 2.5).text Json.library) = .ok (tokenBucket 10 2.5) ∧
    ofText Json.library typedBucket = .ok (tokenBucket 10 2.5) ∧
    ∃ e, ofText Json.library typedAgain = .error e := by
  have rate : (tokenBucket 10 2.5).RateReadsBack Json.library := rfl
  have finite : (tokenBucket 10 2.5).RateFinite := by
    rw [RateFinite]
    decide +kernel
  obtain ⟨alone, objects⟩ := survives_writing Json.lawful_library (tokenBucket 10 2.5) finite
  refine ⟨rate, (alone rate).1, ?_, ?_⟩
  · obtain ⟨any, -⟩ := objects _ _ document?_typedBucket
    have same : (("remark", remark) :: (tokenBucket 10 2.5).members.reverse).Perm
        ((tokenBucket 10 2.5).members ++ [("remark", remark)]) := by
      simpa using List.reverse_perm ((tokenBucket 10 2.5).members ++ [("remark", remark)])
    exact any _ same (by decide)
  · obtain ⟨-, once⟩ := objects _ _ document?_typedAgain
    exact once "capacity" (by decide) (by decide) (.inr (by simp [members, algorithm]))

end Tenure.LimiterConfig
