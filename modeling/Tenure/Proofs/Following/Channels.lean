import Mathlib.Data.List.Basic
import Tenure.Hub

/-!
# What a channel keeps for its readers

A channel knows how far each of its readers has come and keeps the last events that were sent. That
is enough to serve every reader (`Channel.Keeps`): one who is not too far behind finds all that it
has not read, the oldest first, and one who is further behind is told how many events are lost and
finds the rest (`backlog`). Either way what it finds accounts for every event (`Recounts`).

The operations of a hub are told here by what they do to those who listen to a key
(`Hub.listeners`) and to what the hub keeps for a subscription (`Hub.Keeps`). In particular pruning
does nothing to either (`Hub.listeners_prune`, `Hub.Keeps.prune`).
-/

namespace Tenure

variable {ds ds' : List Delivery} {es es' unread : List Event}

/-! ## Deliveries -/

/-- What somebody finds who has these events left to read, the oldest first. -/
def backlog (unread : List Event) : List Delivery :=
  if channelCapacity < unread.length then
    .lagged (unread.length - channelCapacity) ::
      (unread.drop (unread.length - channelCapacity)).map .event
  else unread.map .event

/-- Deliveries that account for a row of events: each of them is delivered or lost, in order, and of
those that are lost the number is told. -/
inductive Recounts : List Delivery → List Event → Prop where
  /-- nothing accounts for nothing -/
  | nil : Recounts [] []
  /-- an event that is delivered -/
  | event {ds : List Delivery} {es : List Event} (e : Event) (h : Recounts ds es) :
      Recounts (.event e :: ds) (e :: es)
  /-- events that are lost -/
  | lagged {ds : List Delivery} {es : List Event} (lost : List Event) (h : Recounts ds es) :
      Recounts (.lagged lost.length :: ds) (lost ++ es)

theorem Recounts.append (h : Recounts ds es) (h' : Recounts ds' es') :
    Recounts (ds ++ ds') (es ++ es') := by
  induction h with
  | nil => exact h'
  | event e _ ih => exact .event e ih
  | lagged lost _ ih =>
    rw [List.append_assoc]
    exact .lagged lost ih

theorem recounts_events (es : List Event) : Recounts (es.map .event) es := by
  induction es with
  | nil => exact .nil
  | cons e es ih => exact .event e ih

/-- What is lost of events of which there are too many is accounted for. -/
theorem recounts_lost (unread : List Event) :
    Recounts [.lagged (unread.length - channelCapacity)]
      (unread.take (unread.length - channelCapacity)) := by
  have told := Recounts.lagged (unread.take (unread.length - channelCapacity)) .nil
  rwa [List.length_take_of_le (Nat.sub_le ..), List.append_nil] at told

/-- Who reads everything that is left is told of all of it. -/
theorem recounts_backlog (unread : List Event) : Recounts (backlog unread) unread := by
  rw [backlog]
  split
  · have all := (recounts_lost unread).append
      (recounts_events (unread.drop (unread.length - channelCapacity)))
    rwa [List.take_append_drop, List.singleton_append] at all
  · exact recounts_events unread

/-- How many events deliveries account for. -/
def spanned : List Delivery → Nat
  | [] => 0
  | .event _ :: ds => spanned ds + 1
  | .lagged n :: ds => n + spanned ds

theorem Recounts.length_eq (h : Recounts ds es) : es.length = spanned ds := by
  induction h with
  | nil => rfl
  | event e _ ih => rw [List.length_cons, ih, spanned]
  | lagged lost _ ih => rw [List.length_append, ih, spanned]

/-! ## Channels -/

namespace Channel

variable {c : Channel} {number : Nat}

/-- The channel can still tell a reader all it has to know of the events that it has not read: how
many they are, and the last of them. -/
structure Keeps (c : Channel) (number : Nat) (unread : List Event) : Prop where
  /-- how far the reader has come -/
  place : ∃ next, c.readers.get? number = some next ∧ c.sent = next + unread.length
  /-- as many of the last ones as a channel keeps -/
  kept : c.recent.take unread.length = unread.reverse.take channelCapacity

/-- Other readers do not matter. -/
theorem Keeps.congr (k : c.Keeps number unread) {readers : Table Nat Nat}
    (same : readers.get? number = c.readers.get? number) :
    Keeps { c with readers := readers } number unread :=
  ⟨same ▸ k.place, k.kept⟩

/-- **A sent event** is one more to read for every reader. -/
theorem Keeps.send (k : c.Keeps number unread) (e : Event) :
    (c.send e).Keeps number (unread ++ [e]) := by
  obtain ⟨next, here, sent⟩ := k.place
  have heard : ¬ c.readers.size = 0 := fun none =>
    nomatch (Table.get?_of_size_eq_zero none number).symm.trans here
  -- what is cut off at the end of the row before or after the event comes in front makes no difference
  have cut : ∀ (n : Nat) (row : List Event), (e :: row.take n).take n = (e :: row).take n := by
    intro n row
    cases n <;> simp [List.take_take]
  rw [Channel.send, if_neg heard]
  refine ⟨⟨next, here, ?_⟩, ?_⟩
  · rw [List.length_append, List.length_singleton, ← Nat.add_assoc, ← sent]
  · rw [List.length_append, List.length_singleton, List.take_take, Nat.min_comm, ← List.take_take,
      List.take_succ_cons, k.kept, List.reverse_append, List.reverse_singleton,
      List.singleton_append, cut]

/-- **A reader that has read the oldest** of what it had left to read finds the rest. -/
theorem Keeps.read (k : c.Keeps number unread) {later : List Event} (rest : later <:+ unread) :
    Keeps { c with readers := c.readers.modify number fun _ => c.sent - later.length }
      number later := by
  obtain ⟨next, here, sent⟩ := k.place
  have few := rest.length_le
  have back : c.sent = c.sent - later.length + later.length := by omega
  refine ⟨⟨c.sent - later.length, ?_, back⟩, ?_⟩
  · rw [Table.get?_modify, if_pos rfl, here]
    rfl
  · obtain ⟨now, rfl⟩ := rest
    calc c.recent.take later.length
        = (c.recent.take (now ++ later).length).take later.length := by
          rw [List.take_take, Nat.min_eq_left few]
      _ = ((now ++ later).reverse.take later.length).take channelCapacity := by
          rw [k.kept, List.take_take, Nat.min_comm, ← List.take_take]
      _ = later.reverse.take channelCapacity := by
          rw [List.reverse_append, List.take_left' List.length_reverse]

end Channel

/-! ## Hubs -/

namespace Hub

variable {h : Hub} {s s' : Subscription} {c : Channel} {key : Id}

/-- The numbers of those who listen to a key, in the order in which they came. -/
def listeners (h : Hub) (key : Id) : List Nat :=
  ((h.channels.get? key).map fun c => c.readers.keys).getD []

/-- The hub can tell a subscriber all it has to know of the events that it has not read. -/
def Keeps (h : Hub) (s : Subscription) (unread : List Event) : Prop :=
  ∃ c, h.channels.get? s.key = some c ∧ c.Keeps s.number unread

theorem audience_eq (h : Hub) (key : Id) : h.audience key = (h.listeners key).length := by
  rw [audience, listeners]
  cases h.channels.get? key with
  | none => rfl
  | some c => exact c.readers.size_eq_length_keys

/-- Who listens to a key after the channel of some key was changed. -/
theorem listeners_modify {f : Channel → Channel} {g : List Nat → List Nat}
    (changes : ∀ c, (f c).readers.keys = g c.readers.keys) (nobody : g [] = []) (h : Hub)
    (key key' : Id) (history : List (Id × Event)) (nextReader : Nat) :
    (Hub.mk (h.channels.modify key f) nextReader history).listeners key' =
      if key' = key then g (h.listeners key') else h.listeners key' := by
  rw [listeners, Table.get?_modify, listeners]
  by_cases same : key' = key
  · subst same
    cases h.channels.get? key' <;> simp [changes, nobody]
  · rw [if_neg same, if_neg same]

theorem listeners_unsubscribe (h : Hub) (s : Subscription) (key : Id) :
    (h.unsubscribe s).listeners key =
      if key = s.key then (h.listeners key).filter (· ≠ s.number) else h.listeners key :=
  listeners_modify (fun c => c.readers.keys_erase s.number) rfl h s.key key _ _

theorem listeners_send (h : Hub) (key : Id) (e : Event) (key' : Id) :
    (h.send key e).listeners key' = h.listeners key' := by
  rw [listeners, readers_send, listeners]

theorem listeners_advance (h : Hub) (s : Subscription) (next : Nat) (key : Id) :
    (h.advance s next).listeners key = h.listeners key :=
  (listeners_modify (g := id) (fun c => c.readers.keys_modify ..) rfl h s.key key _ _).trans
    (ite_self _)

/-- **Whoever subscribes** is the last to listen to its key. -/
theorem listeners_subscribe (new : h.nextReader ∉ h.listeners key) (key' : Id) :
    (h.subscribe key).2.listeners key' =
      h.listeners key' ++ if key' = key then [h.nextReader] else [] := by
  rw [listeners, subscribe, Table.get?_insert]
  by_cases same : key' = key
  · subst same
    rw [if_pos rfl, if_pos rfl, listeners]
    rw [listeners] at new
    cases found : h.channels.get? key' with
    | none => rfl
    | some c =>
      rw [found] at new
      exact (c.readers.keys_insert ..).trans (if_neg new)
  · rw [if_neg same, if_neg same, List.append_nil, listeners]

/-- A channel that pruning leaves has somebody who listens. -/
theorem size_pos_iff {c : Channel} : 0 < c.readers.size ↔ c.readers.keys ≠ [] := by
  rw [c.readers.size_eq_length_keys, List.length_pos_iff]

/-- **Pruning** makes nobody stop listening. -/
theorem listeners_prune (h : Hub) (key : Id) : h.prune.listeners key = h.listeners key := by
  rw [listeners, get?_channels_prune, listeners]
  cases h.channels.get? key with
  | none => rfl
  | some c =>
    by_cases followed : 0 < c.readers.size
    · rw [Option.filter, if_pos (decide_eq_true followed)]
    · rw [Option.filter, if_neg (by simpa using followed)]
      exact (not_not.1 (mt size_pos_iff.2 followed)).symm

/-- The channels that are there after pruning are those to which somebody listens. -/
theorem mem_keys_prune : key ∈ h.prune.channels.keys ↔ h.listeners key ≠ [] := by
  rw [Table.mem_keys_iff, get?_channels_prune, listeners]
  cases h.channels.get? key with
  | none => simp
  | some c =>
    rw [Option.isSome_filter, Option.any_some, decide_eq_true_eq, size_pos_iff, Option.map_some,
      Option.getD_some]

theorem keys_prune_subset (h : Hub) : h.prune.channels.keys ⊆ h.channels.keys :=
  List.map_subset _ (List.filter_subset_self _)

/-! ## What is kept -/

/-- Nothing is kept for a subscriber yet that has just come. -/
theorem keeps_subscribe (h : Hub) (key : Id) : (h.subscribe key).2.Keeps (h.subscribe key).1 [] := by
  refine ⟨_, (Table.get?_insert ..).trans (if_pos rfl), ⟨_, ?_, rfl⟩, ?_⟩
  · exact (Table.get?_insert ..).trans (if_pos rfl)
  · simp

theorem Keeps.subscribe (k : h.Keeps s unread) (other : s.number ≠ h.nextReader) (key : Id) :
    (h.subscribe key).2.Keeps s unread := by
  obtain ⟨c, found, k⟩ := k
  by_cases same : s.key = key
  · subst same
    refine ⟨_, (Table.get?_insert ..).trans (if_pos rfl), ?_⟩
    rw [found]
    exact k.congr ((Table.get?_insert ..).trans (if_neg other))
  · exact ⟨c, (Table.get?_insert ..).trans ((if_neg same).trans found), k⟩

/-- A change of one channel that leaves to a subscriber of it what it has to be told. -/
theorem Keeps.modify {f : Channel → Channel} {unread' : List Event} (k : h.Keeps s unread) (key : Id)
    (own : ∀ {c}, c.Keeps s.number unread → s.key = key → (f c).Keeps s.number unread')
    (others : s.key ≠ key → unread' = unread) (history : List (Id × Event)) (nextReader : Nat) :
    (Hub.mk (h.channels.modify key f) nextReader history).Keeps s unread' := by
  obtain ⟨c, found, k⟩ := k
  by_cases same : s.key = key
  · subst same
    refine ⟨f c, (Table.get?_modify ..).trans ?_, own k rfl⟩
    rw [if_pos rfl, found, Option.map_some]
  · rw [others same]
    exact ⟨c, (Table.get?_modify ..).trans ((if_neg same).trans found), k⟩

theorem Keeps.unsubscribe (k : h.Keeps s unread) (other : s ≠ s') :
    (h.unsubscribe s').Keeps s unread := by
  refine k.modify s'.key (fun k same => k.congr ?_) (fun _ => rfl) _ _
  exact (Table.get?_erase ..).trans (if_neg fun number => other (Subscription.ext same number))

theorem Keeps.send (k : h.Keeps s unread) (key : Id) (e : Event) :
    (h.send key e).Keeps s (unread ++ if key = s.key then [e] else []) := by
  refine k.modify key (fun k same => ?_) (fun apart => ?_) _ _
  · rw [if_pos same.symm]
    exact k.send e
  · rw [if_neg (Ne.symm apart), List.append_nil]

theorem Keeps.advance (k : h.Keeps s unread) (other : s ≠ s') (next : Nat) :
    (h.advance s' next).Keeps s unread := by
  refine k.modify s'.key (fun k same => k.congr ?_) (fun _ => rfl) _ _
  exact (Table.get?_modify ..).trans (if_neg fun number => other (Subscription.ext same number))

/-- **Pruning** takes away nothing that somebody has not read yet. -/
theorem Keeps.prune (k : h.Keeps s unread) : h.prune.Keeps s unread := by
  obtain ⟨c, found, k⟩ := k
  obtain ⟨next, here, -⟩ := k.place
  have followed : 0 < c.readers.size := Nat.pos_of_ne_zero fun none =>
    nomatch (Table.get?_of_size_eq_zero none s.number).symm.trans here
  refine ⟨c, ?_, k⟩
  rw [get?_channels_prune, found, Option.filter, if_pos (decide_eq_true followed)]

theorem Keeps.mem_keys (k : h.Keeps s unread) : s.key ∈ h.channels.keys := by
  obtain ⟨c, found, -⟩ := k
  rw [Table.mem_keys_iff, found, Option.isSome_some]

/-! ## Reading -/

/-- Who does not listen finds nothing, and nothing changes. -/
theorem read_of_stranger (stranger : s.number ∉ h.listeners s.key) :
    h.receive s = ([], h) ∧ h.take s = (none, h) := by
  rw [listeners] at stranger
  rw [receive, take]
  cases found : h.channels.get? s.key with
  | none => exact ⟨rfl, rfl⟩
  | some c =>
    have absent : c.readers.get? s.number = none := by
      rw [found] at stranger
      simpa using mt Table.mem_keys_iff.2 stranger
    simp only [absent, and_self]

/-- What there is to read of the events that are kept. -/
theorem reverse_take_of_keeps (k : c.Keeps s.number unread) :
    (c.recent.take unread.length).reverse = unread.drop (unread.length - channelCapacity) := by
  rw [k.kept, List.take_reverse, List.reverse_reverse]

/-- **Reading everything** that is left. -/
theorem receive_eq (found : h.channels.get? s.key = some c) (k : c.Keeps s.number unread) :
    h.receive s = (backlog unread, h.advance s c.sent) := by
  obtain ⟨next, here, sent⟩ := k.place
  have left : c.sent - next = unread.length := by omega
  simp only [receive, found, here, left, reverse_take_of_keeps k, backlog]
  split
  · rfl
  · next near => rw [Nat.sub_eq_zero_of_le (Nat.not_lt.1 near), List.drop_zero, List.nil_append]

/-- **Reading one thing**: the number of events that are lost, or else the oldest event. -/
theorem take_eq (found : h.channels.get? s.key = some c) (k : c.Keeps s.number unread) :
    h.take s =
      if channelCapacity < unread.length then
        (some (.lagged (unread.length - channelCapacity)), h.advance s (c.sent - channelCapacity))
      else
        match unread with
        | [] => (none, h)
        | e :: later => (some (.event e), h.advance s (c.sent - later.length)) := by
  obtain ⟨next, here, sent⟩ := k.place
  have left : c.sent - next = unread.length := by omega
  simp only [take, found, here, left]
  split
  · rfl
  · next near =>
    have oldest : (c.recent.take unread.length).getLast? = unread.head? := by
      rw [← List.head?_reverse, reverse_take_of_keeps k, Nat.sub_eq_zero_of_le (Nat.not_lt.1 near),
        List.drop_zero]
    cases unread with
    | nil => rw [oldest, List.head?_nil]
    | cons e later =>
      have onward : next + 1 = c.sent - later.length := by
        rw [sent, List.length_cons]
        omega
      rw [oldest, List.head?_cons, onward]

theorem keeps_advance (found : h.channels.get? s.key = some c) (k : c.Keeps s.number unread)
    {later : List Event} (rest : later <:+ unread) :
    (h.advance s (c.sent - later.length)).Keeps s later := by
  refine ⟨_, (Table.get?_modify ..).trans ?_, k.read rest⟩
  rw [if_pos rfl, found, Option.map_some]

/-- Who reads everything finds what was left to read, and nothing is left. -/
theorem Keeps.receive (k : h.Keeps s unread) :
    (h.receive s).1 = backlog unread ∧ (h.receive s).2.Keeps s [] := by
  obtain ⟨c, found, k⟩ := k
  rw [receive_eq found k]
  exact ⟨rfl, keeps_advance found k List.nil_suffix⟩

/-- Who reads one thing finds the first of what was left to read, and the rest is left. -/
theorem Keeps.take (k : h.Keeps s unread) :
    (h.take s).1 = (backlog unread).head? ∧
      ∃ now later, unread = now ++ later ∧ Recounts (h.take s).1.toList now ∧
        (h.take s).2.Keeps s later ∧ backlog unread = (h.take s).1.toList ++ backlog later := by
  obtain ⟨c, found, here⟩ := k
  rw [take_eq found here, backlog]
  by_cases far : channelCapacity < unread.length
  · simp only [if_pos far]
    have left : (unread.drop (unread.length - channelCapacity)).length = channelCapacity := by
      rw [List.length_drop]
      omega
    have rest := keeps_advance found here (List.drop_suffix (unread.length - channelCapacity) _)
    rw [left] at rest
    refine ⟨rfl, _, _, (List.take_append_drop (unread.length - channelCapacity) unread).symm,
      recounts_lost unread, rest, ?_⟩
    rw [backlog, if_neg (by omega), Option.toList_some, List.singleton_append]
  · simp only [if_neg far]
    cases unread with
    | nil => exact ⟨rfl, [], [], rfl, .nil, ⟨c, found, here⟩, rfl⟩
    | cons e later =>
      have near : ¬ channelCapacity < later.length := fun more =>
        far (Nat.lt_succ_of_lt more)
      refine ⟨rfl, [e], later, rfl, .event e .nil, keeps_advance found here (List.suffix_cons ..),
        ?_⟩
      rw [backlog, if_neg near, Option.toList_some, List.singleton_append, List.map_cons]

/-- To read no further is to change nothing. -/
theorem advance_eq_self {next : Nat}
    (stays : ∀ {c place}, h.channels.get? s.key = some c → c.readers.get? s.number = some place →
      next = place) : h.advance s next = h := by
  rw [advance, Table.modify_eq_self fun c found => ?_]
  rw [Table.modify_eq_self fun place here => stays found here]

/-- Whoever reads changes nothing but how far it has read. -/
theorem exists_advance (h : Hub) (s : Subscription) :
    (∃ next, (h.receive s).2 = h.advance s next) ∧ ∃ next, (h.take s).2 = h.advance s next := by
  rw [receive, take]
  cases found : h.channels.get? s.key with
  | none =>
    have stays : h.advance s 0 = h := advance_eq_self fun found' => nomatch found.symm.trans found'
    exact ⟨⟨0, stays.symm⟩, 0, stays.symm⟩
  | some c =>
    have own : ∀ {c'}, h.channels.get? s.key = some c' → c' = c := fun found' =>
      Option.some.inj (found'.symm.trans found)
    dsimp only
    cases here : c.readers.get? s.number with
    | none =>
      have stays : h.advance s 0 = h := advance_eq_self fun found' here' => by
        rw [own found', here] at here'
        cases here'
      exact ⟨⟨0, stays.symm⟩, 0, stays.symm⟩
    | some next =>
      have stays : h.advance s next = h := advance_eq_self fun found' here' => by
        rw [own found', here] at here'
        exact Option.some.inj here'
      refine ⟨⟨_, rfl⟩, ?_⟩
      dsimp only
      split
      · exact ⟨_, rfl⟩
      · split
        · exact ⟨next, stays.symm⟩
        · exact ⟨_, rfl⟩

end Hub

end Tenure
