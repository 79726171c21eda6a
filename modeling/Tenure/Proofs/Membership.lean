import Tenure.Proofs.Decisions
import Tenure.Traffic

/-!
# Membership

Resources and groups are registered one after the other. A resource may be registered as a member of
a group that does not exist yet, which then comes into being with it, and a name that is taken is
refused. Whatever the order of all this, the members of a group are the resources that name it, in
the order in which they were registered (`Ledger.membership_exact`).

Both tables are told by the record of registrations: the resources are those that were taken in
(`Ledger.Filed.resources`), and a group is what `Ledger.recorded` says of it.
-/

namespace Tenure

namespace Ledger

/-! ## Registering -/

/-- What is to be registered. -/
inductive Registration where
  /-- a resource under a name of its own -/
  | resource (id : Id) (r : Resource)
  /-- a group, whose name has yet to be drawn -/
  | group (name : Option String)

/-- Registers: the name, or why not. A refusal leaves the ledger as it is. -/
def register (l : Ledger) (now : Int) : Registration → Except AddError Id × Ledger
  | .resource id r =>
    match l.add id r with
    | .ok l => (.ok id, l)
    | .error e => (.error e, l)
  | .group name =>
    let (id, l) := l.addGroup name now
    (.ok id, l)

/-- Registering as a call. -/
def registering (a : Registration) : Call Ledger (Except AddError Id) :=
  Call.update fun now l => l.register now a

/-- A registration with its answer. -/
structure Filing where
  /-- what was to be registered -/
  asked : Registration
  /-- its name, or why it was refused -/
  answer : Except AddError Id

/-- The resource that was taken in. -/
def Filing.resource? : Filing → Option (Id × Resource)
  | ⟨.resource id r, .ok _⟩ => some (id, r)
  | _ => none

/-- The group that was created for its own sake. -/
def Filing.group? : Filing → Option (Id × Option String)
  | ⟨.group name, .ok id⟩ => some (id, name)
  | _ => none

/-- The resources that were taken in, in order. -/
def takenIn (log : List Filing) : List (Id × Resource) := log.filterMap Filing.resource?

/-- The groups that were created for their own sake, in order. -/
def opened (log : List Filing) : List (Id × Option String) := log.filterMap Filing.group?

/-- Those among resources that name a group. -/
def namers (group : Id) (row : List (Id × Resource)) : List Id :=
  (row.filter fun e => e.2.group = some group).map Prod.fst

/-- Registrations one after the other, from one ledger to another. Between them anything may happen
that leaves the groups as they are and changes of the resources only who has them, as every request
does. The names that are drawn for groups are new. -/
inductive Registered (l₀ : Ledger) : List Filing → Ledger → Prop
  /-- nothing was registered -/
  | start : Registered l₀ [] l₀
  /-- something else happened -/
  | meanwhile {log : List Filing} {l l' : Ledger} (h : Registered l₀ log l) (akin : Akin l l') :
      Registered l₀ log l'
  /-- one more registration -/
  | next {log : List Filing} {l : Ledger} (h : Registered l₀ log l) (now : Int) (a : Registration)
      (unused : ∀ name, a = .group name → l.groups.get? (l.draw .group now).1 = none) :
      Registered l₀ (log ++ [⟨a, (l.register now a).1⟩]) (l.register now a).2

variable {l₀ l l' : Ledger} {log : List Filing} {now : Int} {id group : Id} {r : Resource}

/-! ## One registration -/

theorem register_of_known (known : l.resources.contains id = true) :
    l.register now (.resource id r) = (.error (.duplicate id), l) := by
  rw [register, add, if_pos known]

/-- A resource that is taken in joins its group. -/
theorem get?_joined (groups : Table Id Group) (joins : Option Id) (id group : Id) :
    (joined groups joins id).get? group =
      if joins = some group then
        some ⟨(groups.get? group).bind Group.name,
          ((groups.get? group).map Group.members).getD [] ++ [id]⟩
      else groups.get? group := by
  cases joins with
  | none => rfl
  | some g =>
    rw [joined]
    by_cases own : g = group
    · subst own
      rw [if_pos rfl]
      cases groups.get? g <;> exact (Table.get?_insert ..).trans (if_pos rfl)
    · rw [if_neg fun e => own (Option.some.inj e)]
      cases groups.get? g <;> exact (Table.get?_insert ..).trans (if_neg (Ne.symm own))

theorem register_of_unknown (now : Int) (r : Resource) (unknown : l.resources.contains id = false) :
    ∃ l', l.register now (.resource id r) = (.ok id, l') ∧
      l'.resources = l.resources.insert id r ∧ l'.groups = joined l.groups r.group id := by
  rw [register, add, if_neg (by simp [unknown])]
  exact ⟨_, rfl, rfl, rfl⟩

theorem register_group (now : Int) (name : Option String) :
    ∃ l', l.register now (.group name) = (.ok (l.draw .group now).1, l') ∧
      l'.resources = l.resources ∧
      l'.groups = l.groups.insert (l.draw .group now).1 ⟨name, []⟩ :=
  ⟨_, rfl, rfl, rfl⟩

/-! ## The record tells -/

/-- What a group is after what was taken in and created: one that was never created has no name. -/
def recorded (log : List Filing) (group : Id) : Option Group :=
  if (opened log).any (·.1 = group) || (takenIn log).any (·.2.group = some group) then
    some ⟨((opened log).find? (·.1 = group)).bind Prod.snd, namers group (takenIn log)⟩
  else none

theorem namers_snoc (group : Id) (row : List (Id × Resource)) (id : Id) (r : Resource) :
    namers group (row ++ [(id, r)]) =
      namers group row ++ if r.group = some group then [id] else [] := by
  simp only [namers, List.filter_append, List.map_append, List.filter_cons, List.filter_nil,
    decide_eq_true_eq]
  split <;> rfl

theorem takenIn_snoc (log : List Filing) (f : Filing) :
    takenIn (log ++ [f]) = takenIn log ++ f.resource?.toList := by
  cases h : f.resource? <;> simp [takenIn, h]

theorem opened_snoc (log : List Filing) (f : Filing) :
    opened (log ++ [f]) = opened log ++ f.group?.toList := by
  cases h : f.group? <;> simp [opened, h]

/-- A group exists if it was created or if something names it. -/
theorem isSome_recorded : (recorded log group).isSome = true ↔
    (∃ e ∈ opened log, e.1 = group) ∨ ∃ e ∈ takenIn log, e.2.group = some group := by
  simp [recorded]

theorem recorded_eq_none : recorded log group = none ↔
    (∀ e ∈ opened log, e.1 ≠ group) ∧ ∀ e ∈ takenIn log, e.2.group ≠ some group := by
  rw [← Option.not_isSome_iff_eq_none, isSome_recorded, not_or]
  simp only [not_exists, not_and, ne_eq]

theorem find?_opened_eq_none (unknown : recorded log group = none) :
    (opened log).find? (·.1 = group) = none := by
  simpa using (recorded_eq_none.1 unknown).1

theorem namers_eq_nil (unknown : recorded log group = none) : namers group (takenIn log) = [] := by
  simpa [namers] using (recorded_eq_none.1 unknown).2

theorem eq_of_recorded {old : Group} (known : recorded log group = some old) :
    old = ⟨((opened log).find? (·.1 = group)).bind Prod.snd, namers group (takenIn log)⟩ := by
  rw [recorded] at known
  split at known
  · exact (Option.some.inj known).symm
  · cases known

theorem name_recorded (log : List Filing) (group : Id) :
    (recorded log group).bind Group.name = ((opened log).find? (·.1 = group)).bind Prod.snd := by
  cases known : recorded log group with
  | none => rw [find?_opened_eq_none known]; rfl
  | some old => rw [eq_of_recorded known]; rfl

theorem members_recorded (log : List Filing) (group : Id) :
    ((recorded log group).map Group.members).getD [] = namers group (takenIn log) := by
  cases known : recorded log group with
  | none => rw [namers_eq_nil known]; rfl
  | some old => rw [eq_of_recorded known]; rfl

theorem opened_resource (log : List Filing) (id : Id) (r : Resource)
    (answer : Except AddError Id) : opened (log ++ [⟨.resource id r, answer⟩]) = opened log :=
  (opened_snoc ..).trans (List.append_nil _)

theorem takenIn_refused (log : List Filing) (id : Id) (r : Resource) (e : AddError) :
    takenIn (log ++ [⟨.resource id r, .error e⟩]) = takenIn log :=
  (takenIn_snoc ..).trans (List.append_nil _)

theorem takenIn_group (log : List Filing) (name : Option String) (answer : Except AddError Id) :
    takenIn (log ++ [⟨.group name, answer⟩]) = takenIn log :=
  (takenIn_snoc ..).trans (List.append_nil _)

/-- A refusal is recorded nowhere. -/
theorem recorded_refused (log : List Filing) (id : Id) (r : Resource) (e : AddError) (group : Id) :
    recorded (log ++ [⟨.resource id r, .error e⟩]) group = recorded log group := by
  rw [recorded, recorded, takenIn_refused, opened_resource]

/-- A resource that is taken in is recorded in the group that it names, and nowhere else. -/
theorem recorded_takenIn (log : List Filing) (id : Id) (r : Resource) (group : Id) :
    recorded (log ++ [⟨.resource id r, .ok id⟩]) group =
      if r.group = some group then
        some ⟨(recorded log group).bind Group.name,
          ((recorded log group).map Group.members).getD [] ++ [id]⟩
      else recorded log group := by
  have more : takenIn (log ++ [⟨.resource id r, .ok id⟩]) = takenIn log ++ [(id, r)] :=
    takenIn_snoc ..
  rw [name_recorded, members_recorded, recorded, opened_resource, more, namers_snoc,
    List.any_append]
  by_cases joins : r.group = some group
  · simp [joins]
  · simp only [List.any_cons, List.any_nil, decide_eq_false joins, Bool.or_false, if_neg joins,
      List.append_nil, recorded]

/-- A new group has its name and no members. -/
theorem recorded_opened {name : Option String} (unknown : recorded log id = none) (group : Id) :
    recorded (log ++ [⟨.group name, .ok id⟩]) group =
      if group = id then some ⟨name, []⟩ else recorded log group := by
  have more : opened (log ++ [⟨.group name, .ok id⟩]) = opened log ++ [(id, name)] :=
    opened_snoc ..
  rw [recorded, takenIn_group, more, List.find?_append, List.any_append]
  by_cases own : group = id
  · subst own
    simp [find?_opened_eq_none unknown, namers_eq_nil unknown]
  · simp only [List.any_cons, List.any_nil, List.find?_cons, List.find?_nil,
      decide_eq_false (Ne.symm own), Bool.or_false, Option.or_none, if_neg own, recorded]

/-- The ledger is as the record of registrations tells. -/
structure Filed (log : List Filing) (l : Ledger) : Prop where
  /-- no name was taken in twice -/
  once : ((takenIn log).map Prod.fst).Nodup
  /-- no name was drawn twice -/
  apart : ((opened log).map Prod.fst).Nodup
  /-- the resources are those taken in, but for who has them -/
  resources : ∀ id, (l.resources.get? id).map Resource.blank =
    (((takenIn log).find? (·.1 = id)).map Prod.snd).map Resource.blank
  /-- the groups are those recorded -/
  groups : ∀ group, l.groups.get? group = recorded log group

theorem Filed.start (resources : ∀ id, l.resources.get? id = none)
    (groups : ∀ group, l.groups.get? group = none) : Filed [] l :=
  ⟨List.nodup_nil, List.nodup_nil, fun id => by rw [resources]; rfl, groups⟩

theorem Filed.akin (filed : Filed log l) (akin : Akin l l') : Filed log l' :=
  { filed with
    resources := fun id => (akin.blanks id).trans (filed.resources id)
    groups := fun group => akin.groups ▸ filed.groups group }

/-- A name is free exactly if no resource was taken in under it. -/
theorem Filed.unknown_iff (filed : Filed log l) :
    l.resources.contains id = false ↔ id ∉ (takenIn log).map Prod.fst := by
  have same := congrArg Option.isSome (filed.resources id)
  simp only [Option.isSome_map] at same
  rw [Table.contains_eq_isSome, same, Bool.eq_false_iff, ne_eq, List.find?_isSome]
  simp

theorem find?_takenIn_eq_none (new : id ∉ (takenIn log).map Prod.fst) :
    (takenIn log).find? (·.1 = id) = none :=
  List.find?_eq_none.2 fun e he => by
    simpa using fun own => new (List.mem_map.2 ⟨e, he, own⟩)

/-- One more resource, whether or not it is taken in. -/
theorem Filed.resource (filed : Filed log l) (now : Int) (id : Id) (r : Resource) :
    Filed (log ++ [⟨.resource id r, (l.register now (.resource id r)).1⟩])
      (l.register now (.resource id r)).2 := by
  cases known : l.resources.contains id with
  | true =>
    rw [register_of_known known]
    have same := takenIn_refused log id r (.duplicate id)
    exact ⟨same ▸ filed.once, (opened_resource ..).symm ▸ filed.apart, same ▸ filed.resources,
      fun group => by rw [recorded_refused, filed.groups]⟩
  | false =>
    obtain ⟨l', done, resources, groups⟩ := register_of_unknown now r known
    have new := filed.unknown_iff.1 known
    have more : takenIn (log ++ [⟨.resource id r, .ok id⟩]) = takenIn log ++ [(id, r)] :=
      takenIn_snoc ..
    rw [done]
    refine ⟨?_, (opened_resource ..).symm ▸ filed.apart, fun id' => ?_, fun group => ?_⟩
    · rw [more, List.map_append, List.nodup_append]
      refine ⟨filed.once, by simp, fun a ha b hb => ?_⟩
      cases List.mem_singleton.1 hb
      exact fun e => new (by rw [e] at ha; exact ha)
    · rw [more, resources, Table.get?_insert, List.find?_append]
      by_cases own : id' = id
      · subst own
        simp [find?_takenIn_eq_none new]
      · rw [if_neg own, filed.resources]
        simp [Ne.symm own]
    · rw [groups, get?_joined, recorded_takenIn, filed.groups]

/-- One more group. -/
theorem Filed.newGroup (filed : Filed log l) {now : Int} (name : Option String)
    (unused : l.groups.get? (l.draw .group now).1 = none) :
    Filed (log ++ [⟨.group name, (l.register now (.group name)).1⟩])
      (l.register now (.group name)).2 := by
  obtain ⟨l', done, resources, groups⟩ := register_group (l := l) now name
  rw [filed.groups] at unused
  rw [done]
  refine ⟨takenIn_group log name _ ▸ filed.once, ?_, fun id => ?_, fun group => ?_⟩
  · have more : opened (log ++ [⟨.group name, .ok (l.draw .group now).1⟩]) =
        opened log ++ [((l.draw .group now).1, name)] := opened_snoc ..
    rw [more, List.map_append, List.nodup_append]
    refine ⟨filed.apart, by simp, fun a ha b hb => ?_⟩
    cases List.mem_singleton.1 hb
    obtain ⟨e, he, rfl⟩ := List.mem_map.1 ha
    exact (recorded_eq_none.1 unused).1 e he
  · rw [takenIn_group, resources, filed.resources]
  · rw [groups, Table.get?_insert, recorded_opened unused, filed.groups]

/-- **Whatever was registered**, the ledger is as the record tells. -/
theorem Registered.filed (h : Registered l₀ log l) (resources : ∀ id, l₀.resources.get? id = none)
    (groups : ∀ group, l₀.groups.get? group = none) : Filed log l := by
  induction h with
  | start => exact .start resources groups
  | meanwhile _ akin ih => exact ih.akin akin
  | next _ now a unused ih =>
    cases a with
    | resource id r => exact ih.resource now id r
    | group name => exact ih.newGroup name (unused name rfl)

/-! ## Membership -/

theorem Filed.members_eq (filed : Filed log l) (group : Id) :
    l.members group = namers group (takenIn log) := by
  rw [members, filed.groups, members_recorded]

theorem namers_sublist (group : Id) (row : List (Id × Resource)) :
    (namers group row).Sublist (row.map Prod.fst) := List.Sublist.map _ List.filter_sublist

theorem mem_namers {row : List (Id × Resource)} :
    id ∈ namers group row ↔ ∃ r, (id, r) ∈ row ∧ r.group = some group := by
  simp [namers]

/-- The resources are those taken in, but for who has them. -/
theorem Filed.stored (filed : Filed log l) {b : Resource} :
    (l.resources.get? id).map Resource.blank = some b ↔
      ∃ r, (id, r) ∈ takenIn log ∧ r.blank = b := by
  rw [filed.resources, Option.map_eq_some_iff]
  exact exists_congr fun r => and_congr_left fun _ =>
    (Table.mem_entries_iff (t := ⟨takenIn log, filed.once⟩)).symm

/-- The resources that name a group are those of the record that do. -/
theorem Filed.names_iff (filed : Filed log l) :
    (∃ r, l.resources.get? id = some r ∧ r.group = some group) ↔
      ∃ r, (id, r) ∈ takenIn log ∧ r.group = some group := by
  constructor
  · rintro ⟨r, found, names⟩
    obtain ⟨r', there, same⟩ := filed.stored.1 (congrArg (Option.map Resource.blank) found)
    exact ⟨r', there, (congrArg Resource.group same).trans names⟩
  · rintro ⟨r, there, names⟩
    obtain ⟨r', found, same⟩ := Option.map_eq_some_iff.1 (filed.stored.2 ⟨r, there, rfl⟩)
    exact ⟨r', found, (congrArg Resource.group same).trans names⟩

theorem Filed.contains_iff (filed : Filed log l) : l.groups.contains group = true ↔
    (∃ name, (group, name) ∈ opened log) ∨
      ∃ id r, l.resources.get? id = some r ∧ r.group = some group := by
  rw [Table.contains_eq_isSome, filed.groups, isSome_recorded]
  simp only [filed.names_iff]
  simp

/-- A group that was created has the name it was created with. -/
theorem Filed.name_eq (filed : Filed log l) {name : Option String}
    (there : (group, name) ∈ opened log) : (l.groups.get? group).map Group.name = some name := by
  have found := (Table.mem_entries_iff (t := ⟨opened log, filed.apart⟩)).1 there
  obtain ⟨e, first, rfl⟩ := Option.map_eq_some_iff.1 found
  obtain ⟨old, known⟩ := Option.isSome_iff_exists.1 (isSome_recorded.2 (.inl ⟨_, there, rfl⟩))
  rw [filed.groups, known, eq_of_recorded known, first]
  rfl

/-- Whoever joins a group leaves it its name and those who joined before. -/
theorem get?_joined_of_some {groups : Table Id Group} {old : Group}
    (found : groups.get? group = some old) (joins : Option Id) (id : Id) :
    (joined groups joins id).get? group =
      some ⟨old.name, old.members ++ if joins = some group then [id] else []⟩ := by
  rw [get?_joined, found]
  split
  · rfl
  · rw [List.append_nil]

/-- **Membership is exact.** Whatever was registered, the members of a group are the resources that
name it, each once and in the order in which they were taken in, and what was taken in is stored. A
group exists if it was created or if a stored resource names it, and has the name it was created
with. One more resource is refused exactly if its name is taken, and then nothing changes; else a
group that exists keeps its name and its members, whom the resource follows if it names the group.
As a call it does just this, in one stretch and without touching any lock. -/
theorem membership_exact (resources : ∀ id, l₀.resources.get? id = none)
    (groups : ∀ group, l₀.groups.get? group = none) (h : Registered l₀ log l) :
    (∀ group, l.members group = namers group (takenIn log) ∧ (l.members group).Nodup ∧
      ∀ id, id ∈ l.members group ↔ ∃ r, l.resources.get? id = some r ∧ r.group = some group) ∧
    (∀ id b, (l.resources.get? id).map Resource.blank = some b ↔
      ∃ r, (id, r) ∈ takenIn log ∧ r.blank = b) ∧
    (∀ group, l.groups.contains group = true ↔ (∃ name, (group, name) ∈ opened log) ∨
      ∃ id r, l.resources.get? id = some r ∧ r.group = some group) ∧
    (∀ group name, (group, name) ∈ opened log →
      (l.groups.get? group).map Group.name = some name) ∧
    ∀ now id r,
      (l.resources.contains id = true →
        l.register now (.resource id r) = (.error (.duplicate id), l)) ∧
      (l.resources.contains id = false → ∃ l', l.register now (.resource id r) = (.ok id, l') ∧
        ∀ group old, l.groups.get? group = some old → l'.groups.get? group =
          some ⟨old.name, old.members ++ if r.group = some group then [id] else []⟩) ∧
      ∀ owner m ls, (registering (.resource id r)).run owner m l ls =
        (.returned (l.register m.stamp (.resource id r)).1,
          (l.register m.stamp (.resource id r)).2, ls) := by
  have filed := h.filed resources groups
  refine ⟨fun group => ⟨filed.members_eq group, ?_, fun id => ?_⟩, fun _ _ => filed.stored,
    fun _ => filed.contains_iff, fun _ _ => filed.name_eq,
    fun now id r => ⟨register_of_known, fun unknown => ?_, fun _ _ _ => rfl⟩⟩
  · rw [filed.members_eq]
    exact filed.once.sublist (namers_sublist ..)
  · rw [filed.members_eq, mem_namers, filed.names_iff]
  · obtain ⟨l', done, -, joins⟩ := register_of_unknown now r unknown
    exact ⟨l', done, fun group old found => joins ▸ get?_joined_of_some found r.group id⟩

/-- Two seats of a hall that nobody created; the first seat once more, for another hall; a hall that
is created, and a seat of it. -/
def annsHalls : List Registration :=
  let seat (hall : Id) : Resource := .fresh 1.0 (some hall) none none
  [.resource ⟨1, 1⟩ (seat ⟨9, 9⟩), .resource ⟨1, 2⟩ (seat ⟨9, 9⟩), .resource ⟨1, 1⟩ (seat ⟨9, 8⟩),
    .group (some "Hall"), .resource ⟨1, 3⟩ (seat ⟨5, 0⟩)]

/-- The record and the ledger after one more registration. -/
def file (s : List Filing × Ledger) (a : Registration) : List Filing × Ledger :=
  (s.1 ++ [⟨a, (s.2.register 5 a).1⟩], (s.2.register 5 a).2)

/-- Both halls have the seats that were taken in for them, and the hall of the seat that was refused
does not exist. -/
theorem membership_exact_in_halls :
    let s := annsHalls.foldl file ([], empty (.counting 0))
    Registered (empty (.counting 0)) s.1 s.2 ∧
    s.2.members ⟨9, 9⟩ = [⟨1, 1⟩, ⟨1, 2⟩] ∧ s.2.members ⟨5, 0⟩ = [⟨1, 3⟩] ∧
    (s.2.groups.get? ⟨5, 0⟩).map Group.name = some (some "Hall") ∧
    s.2.groups.contains ⟨9, 8⟩ = false ∧
    s.2.register 6 (.resource ⟨1, 2⟩ (.fresh 1.0 (some ⟨9, 8⟩) none none)) =
      (.error (.duplicate ⟨1, 2⟩), s.2) := by
  intro s
  have registered : Registered (empty (.counting 0)) s.1 s.2 :=
    ((((Registered.start.next 5 _ (by intro _ e; cases e)).next 5 _
      (by intro _ e; cases e)).next 5 _ (by intro _ e; cases e)).next 5 _ (fun _ _ => rfl)).next 5 _
      (by intro _ e; cases e)
  obtain ⟨members, -, -, names, more⟩ := membership_exact (fun _ => rfl) (fun _ => rfl) registered
  exact ⟨registered, (members ⟨9, 9⟩).1.trans rfl, (members ⟨5, 0⟩).1.trans rfl,
    names _ _ (by decide +kernel), by decide +kernel, (more 6 _ _).1 (by decide +kernel)⟩

end Ledger

end Tenure
