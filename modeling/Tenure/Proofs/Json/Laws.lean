import Mathlib.Data.List.Basic
import Mathlib.Data.List.Nodup
import Mathlib.Data.List.Perm.Basic
import Tenure.Json.Library

/-!
# What a library promises

A library for documents is used without looking into it. What is counted on is said here
(`Json.Library.Lawful`): what it writes is a document that can be read back, a field is read from the
one member that has its name, and the variant is named by the tag.

An object is looked at as the list of its members, and what counts about the list is which values there
are under each name (`Json.named`). So in a type whose names are apart (`Json.Tagged.Apart`) neither
the order of the members nor others among them matter (`Json.Library.Lawful.read_of_perm`), and none
may be dropped or repeated (`Json.Library.Lawful.read_of_count`).
-/

namespace Tenure.Json

/-! ## Values by name -/

section Named

variable {k : String} {v : Json} {ms ms' : List (String × Json)}

/-- The values of all members of a name, in order. -/
def named (k : String) (ms : List (String × Json)) : List Json :=
  (ms.filter fun m => m.1 = k).map Prod.snd

@[simp] theorem named_nil : named k [] = [] := rfl

@[simp] theorem named_cons {m : String × Json} :
    named k (m :: ms) = if m.1 = k then m.2 :: named k ms else named k ms := by
  simp only [named, List.filter_cons, decide_eq_true_eq]
  split <;> rfl

@[simp] theorem named_append : named k (ms ++ ms') = named k ms ++ named k ms' := by
  simp [named]

theorem mem_named : v ∈ named k ms ↔ (k, v) ∈ ms := by
  simp [named]

theorem named_eq_nil (absent : ∀ m ∈ ms, m.1 ≠ k) : named k ms = [] := by
  simpa [named, List.filter_eq_nil_iff] using absent

theorem length_named : (named k ms).length = (ms.map Prod.fst).count k := by
  induction ms with
  | nil => rfl
  | cons m ms ih =>
    rw [named_cons, List.map_cons, List.count_cons]
    split <;> simp_all

/-- Among members of different names, each is the only one of its own. -/
theorem named_eq_singleton (apart : (ms.map Prod.fst).Nodup) {m : String × Json} (own : m ∈ ms) :
    named m.1 ms = [m.2] := by
  induction ms with
  | nil => cases own
  | cons m' ms ih =>
    obtain ⟨absent, apart⟩ := List.nodup_cons.1 apart
    rcases List.mem_cons.1 own with rfl | own
    · have others : ∀ n ∈ ms, n.1 ≠ m.1 := fun n hn same => absent (same ▸ List.mem_map_of_mem hn)
      rw [named_cons, if_pos rfl, named_eq_nil others]
    · have other : m'.1 ≠ m.1 := fun same => absent (same ▸ List.mem_map_of_mem own)
      rw [named_cons, if_neg other, ih apart own]

theorem named_perm (same : ms.Perm ms') : (named k ms).Perm (named k ms') :=
  (same.filter _).map _

/-- Members of one name left out, there are the same under every other. -/
theorem named_filter {tag : String} (other : k ≠ tag) :
    named k (ms.filter fun m => m.1 ≠ tag) = named k ms := by
  rw [named, named, List.filter_filter]
  refine congrArg _ (List.filter_congr fun m _ => ?_)
  by_cases same : m.1 = k <;> simp [same, other]

end Named

/-! ## Laws -/

/-- Whether a value contains no others. -/
def Plain : Json → Prop
  | .array _ => False
  | .object _ => False
  | _ => True

/-- Whether there is a document that stands for a value; for infinities there is none. -/
def Scalar.Finite : (type : Scalar) → type.Value → Prop
  | f64, x => Float.isFinite x = true
  | _, _ => True

namespace Library

/-- Whether members give a value for each of the fields: there is one member of its name, and from
that the value is read. -/
def Gives (lib : Library) : {fs : List Field} → List (String × Json) → Row fs → Prop
  | [], _, _ => True
  | f :: _, ms, (x, row) => (named f.name ms).map (lib.scalar f.type) = [.ok x] ∧ lib.Gives ms row

/-- **What a library promises.** -/
structure Lawful (lib : Library) : Prop where
  /-- a string is read back -/
  text_string (s : String) : lib.document? (lib.text (.string s)) = some (.string s)
  /-- so is a whole number -/
  text_natural (n : UInt64) :
    lib.document? (lib.text (.number (.natural n))) = some (.number (.natural n))
  /-- so is an object, if its values are -/
  text_object (ms : List (String × Json))
    (back : ∀ m ∈ ms, m.2.Plain ∧ lib.document? (lib.text m.2) = some m.2) :
    lib.document? (lib.text (.object ms)) = some (.object ms)
  /-- a value is read from what stands for it -/
  scalar_toJson (type : Scalar) (x : type.Value) (finite : type.Finite x) :
    lib.scalar type (type.toJson x) = .ok x
  /-- fields are read from the members of their names, one for each, and no others matter -/
  fields_eq_ok_iff (fs : List Field) (apart : (fs.map Field.name).Nodup)
    (ms : List (String × Json)) (row : Row fs) : lib.fields fs ms = .ok row ↔ lib.Gives ms row
  /-- the variant is named by the one member that is the tag, and its fields are read from the other
  members -/
  read_eq_ok_iff {α : Type} (type : Tagged α) (s : String) (ms : List (String × Json))
    (text : lib.document? s = some (.object ms)) (x : α) :
    lib.read type s = .ok x ↔ ∃ v row, named type.tag ms = [.string v.name] ∧
      type.variant? v.name = some v ∧
      lib.fields v.fields (ms.filter fun m => m.1 ≠ type.tag) = .ok row ∧ v.make row = x
  /-- a value is written as an object of its members -/
  write_eq {α : Type} (type : Tagged α) (x : α) :
    lib.write type x = lib.text (.object (type.members x))

end Library

/-! ## Rows of fields -/

/-- Whether documents can stand for all values. -/
def Row.Finite : {fs : List Field} → Row fs → Prop
  | [], _ => True
  | f :: _, (x, row) => f.type.Finite x ∧ Row.Finite row

theorem Row.map_members {fs : List Field} (row : Row fs) :
    row.members.map Prod.fst = fs.map Field.name := by
  induction fs with
  | nil => rfl
  | cons f fs ih =>
    obtain ⟨x, row⟩ := row
    rw [members, List.map_cons, List.map_cons, ih row]

section Gives

variable {lib : Library} {fs : List Field} {row : Row fs} {ms : List (String × Json)} {k : String}

/-- Fields are given by the members that stand for them, if each is the only one of its name. -/
theorem Library.Lawful.gives_of_named (laws : lib.Lawful) (finite : row.Finite)
    (only : ∀ m ∈ row.members, named m.1 ms = [m.2]) : lib.Gives ms row := by
  induction fs with
  | nil => trivial
  | cons f fs ih =>
    obtain ⟨x, row⟩ := row
    obtain ⟨own, others⟩ := List.forall_mem_cons.1 only
    refine ⟨?_, ih finite.2 others⟩
    rw [own, List.map_singleton, laws.scalar_toJson f.type x finite.1]

/-- What gives fields has each of their names once. -/
theorem Library.Gives.count_eq (given : lib.Gives ms row) (own : k ∈ fs.map Field.name) :
    (ms.map Prod.fst).count k = 1 := by
  induction fs with
  | nil => cases own
  | cons f fs ih =>
    obtain ⟨x, row⟩ := row
    rcases List.mem_cons.1 own with rfl | own
    · rw [← length_named, ← List.length_map (f := lib.scalar f.type), given.1]
      rfl
    · exact ih given.2 own

/-- Members of another name may be left out. -/
theorem Library.gives_filter {tag : String} (other : tag ∉ fs.map Field.name) :
    lib.Gives (ms.filter fun m => m.1 ≠ tag) row ↔ lib.Gives ms row := by
  induction fs with
  | nil => rfl
  | cons f fs ih =>
    obtain ⟨x, row⟩ := row
    obtain ⟨first, others⟩ := not_or.1 (mt List.mem_cons.2 other)
    rw [Gives, Gives, named_filter (Ne.symm first), ih others]

end Gives

/-! ## Values of tagged types -/

section Tagged

variable {α : Type} {type : Tagged α} {v : Variant α} {row : Row v.fields} {k s : String}
  {ms extras : List (String × Json)}

/-- Whether the names in a type are apart: those of its variants, and those of the fields of a variant
and the tag. -/
structure Tagged.Apart (type : Tagged α) : Prop where
  /-- no two variants have the same name -/
  variants : (type.variants.map Variant.name).Nodup
  /-- no two fields of a variant do, and none is named like the tag -/
  fields : ∀ v ∈ type.variants, (type.tag :: v.fields.map Field.name).Nodup

/-- A variant is found by its name. -/
theorem Tagged.Apart.variant?_name (apart : type.Apart) (own : v ∈ type.variants) :
    type.variant? v.name = some v := by
  obtain ⟨before, after, split⟩ := List.append_of_mem own
  have names := apart.variants
  rw [split, List.map_append, List.map_cons] at names
  have others : ∀ w ∈ before, w.name ≠ v.name := fun w hw same =>
    (List.nodup_append.1 names).2.2 w.name (List.mem_map_of_mem hw) v.name List.mem_cons_self same
  refine List.find?_eq_some_iff_append.2 ⟨by simp, before, after, split, fun w hw => ?_⟩
  simpa using others w hw

theorem Tagged.map_entries :
    (type.entries v row).map Prod.fst = type.tag :: v.fields.map Field.name := by
  rw [entries, List.map_cons, Row.map_members]

namespace Library.Lawful

variable {lib : Library}

/-- **A value is read** if and only if one member is the tag and names a variant, and the members give
the fields of that variant. -/
theorem read_eq_ok_iff_gives (laws : lib.Lawful) (apart : type.Apart)
    (text : lib.document? s = some (.object ms)) {x : α} :
    lib.read type s = .ok x ↔ ∃ v ∈ type.variants, ∃ row, named type.tag ms = [.string v.name] ∧
      lib.Gives ms row ∧ v.make row = x := by
  have fields : ∀ v ∈ type.variants, ∀ row,
      lib.fields v.fields (ms.filter fun m => m.1 ≠ type.tag) = .ok row ↔ lib.Gives ms row := by
    intro v own row
    obtain ⟨other, fields⟩ := List.nodup_cons.1 (apart.fields v own)
    rw [laws.fields_eq_ok_iff _ fields, gives_filter other]
  rw [laws.read_eq_ok_iff type s ms text x]
  constructor
  · rintro ⟨v, row, tag, found, made, rfl⟩
    have own : v ∈ type.variants := List.mem_of_find?_eq_some found
    exact ⟨v, own, row, tag, (fields v own row).1 made, rfl⟩
  · rintro ⟨v, own, row, tag, given, rfl⟩
    exact ⟨v, row, tag, apart.variant?_name own, (fields v own row).2 given, rfl⟩

/-- **Members in any order,** with others among them, are read as the value. -/
theorem read_of_perm (laws : lib.Lawful) (apart : type.Apart) (own : v ∈ type.variants)
    (finite : row.Finite) (text : lib.document? s = some (.object ms))
    (same : ms.Perm (type.entries v row ++ extras))
    (foreign : ∀ m ∈ extras, m.1 ∉ type.tag :: v.fields.map Field.name) :
    lib.read type s = .ok (v.make row) := by
  have only : ∀ m ∈ type.entries v row, named m.1 ms = [m.2] := by
    intro m hm
    have known : m.1 ∈ type.tag :: v.fields.map Field.name := by
      rw [← Tagged.map_entries]
      exact List.mem_map_of_mem hm
    have all := named_perm (k := m.1) same
    rw [named_append, named_eq_singleton (Tagged.map_entries ▸ apart.fields v own) hm,
      named_eq_nil fun n hn same => foreign n hn (same ▸ known), List.append_nil] at all
    exact List.perm_singleton.1 all
  obtain ⟨tag, others⟩ := List.forall_mem_cons.1 only
  exact (laws.read_eq_ok_iff_gives apart text).2
    ⟨v, own, row, tag, laws.gives_of_named finite others, rfl⟩

/-- **A member dropped or repeated** leaves nothing that can be read, unless another variant is
named. -/
theorem read_of_count (laws : lib.Lawful) (apart : type.Apart) (own : v ∈ type.variants)
    (text : lib.document? s = some (.object ms)) (known : k ∈ type.tag :: v.fields.map Field.name)
    (other : (ms.map Prod.fst).count k ≠ 1)
    (tag : k = type.tag ∨ (type.tag, .string v.name) ∈ ms) : ∃ e, lib.read type s = .error e := by
  cases read : lib.read type s with
  | error e => exact ⟨e, rfl⟩
  | ok x =>
    obtain ⟨w, own', row, only, given, -⟩ := (laws.read_eq_ok_iff_gives apart text).1 read
    refine absurd ?_ other
    rcases List.mem_cons.1 known with rfl | field
    · rw [← length_named, only]
      rfl
    rcases tag with rfl | tag
    · exact absurd field (List.nodup_cons.1 (apart.fields v own)).1
    · -- whatever is read is of the variant that is named
      have named := mem_named.2 tag
      rw [only, List.mem_singleton] at named
      have found := apart.variant?_name own
      rw [Json.string.inj named, apart.variant?_name own'] at found
      cases found
      exact given.count_eq field

/-- **A value as written** is a text of the object of its members. -/
theorem document?_write (laws : lib.Lawful) {x : α}
    (back : ∀ m ∈ type.members x, m.2.Plain ∧ lib.document? (lib.text m.2) = some m.2) :
    lib.document? (lib.write type x) = some (.object (type.members x)) := by
  rw [laws.write_eq]
  exact laws.text_object _ back

end Library.Lawful

end Tagged

end Tenure.Json
