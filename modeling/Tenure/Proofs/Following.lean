import Mathlib.Data.List.Dedup
import Mathlib.Data.List.Induction
import Mathlib.Data.List.Perm.Subperm
import Tenure.Proofs.Following.Histories

/-!
# Following a key

Whatever a hub is asked for, its channels agree with the record (`Hub.Serves`): those who listen to
a key are those who follow it, and each of them finds exactly the events that were sent since it
subscribed and that it has not read, of which only the oldest may be lost. So the answers of a hub
are told by its record alone (`Hub.Serves.answer`), and as pruning leaves no trace there, nobody can
tell whether the hub was pruned (`Hub.pruning_unobservable`).
-/

namespace Tenure

namespace Hub

variable {log : Log} {x : Entry} {h h' : Hub} {s : Subscription} {key : Id}

/-! ## Hubs that agree with their record -/

/-- What a hub owes to one who follows: of the events that it has to be told, those that it was not
told yet. -/
def Owes (h : Hub) (log : Log) (s : Subscription) : Prop :=
  ∃ past left, told log s = past ++ left ∧ Recounts (got log s) past ∧ h.Keeps s left

/-- What holds of a hub and its record at every time. -/
structure Serves (log : Log) (h : Hub) : Prop where
  /-- the subscriptions are numbered in order -/
  numbers : (opened log).map Subscription.number = List.range h.nextReader
  /-- those who listen are those who follow -/
  listeners : ∀ key, h.listeners key = (followers log key).map Subscription.number
  /-- and they can be told what they have to be told -/
  owes : ∀ s ∈ following log, h.Owes log s

theorem serves_empty : Serves [] Hub.empty := ⟨rfl, fun _ => rfl, nofun⟩

/-- What is left to be told is what the record says. -/
theorem Owes.unread (o : h.Owes log s) :
    h.Keeps s (unread log s) ∧ ∃ past, told log s = past ++ Hub.unread log s ∧
      Recounts (got log s) past := by
  obtain ⟨past, left, told, recounts, keeps⟩ := o
  have same : Hub.unread log s = left := by
    rw [Hub.unread, told, ← recounts.length_eq, List.drop_left]
  rw [same]
  exact ⟨keeps, past, told, recounts⟩

/-- Who is not concerned by an act is owed what it was owed before. -/
theorem Owes.stay (o : h.Owes log s) (other : x.opened? ≠ some s) (mute : x.event? s.key = none)
    (idle : x.found s = []) (keeps : ∀ {left}, h.Keeps s left → h'.Keeps s left) :
    h'.Owes (x :: log) s := by
  obtain ⟨past, left, told, recounts, kept⟩ := o
  refine ⟨past, left, ?_, ?_, keeps kept⟩
  · rw [told_cons other, mute, Option.toList_none, List.append_nil, told]
  · rw [got_cons other, idle, List.append_nil]
    exact recounts

theorem Serves.number_lt (sv : Serves log h) (begun : s ∈ opened log) :
    s.number < h.nextReader := by
  rw [← List.mem_range, ← sv.numbers]
  exact List.mem_map_of_mem begun

theorem Serves.length_opened (sv : Serves log h) : (opened log).length = h.nextReader := by
  rw [← List.length_map Subscription.number, sv.numbers, List.length_range]

/-- Who listens under a number follows under it. -/
theorem Serves.mem_listeners (sv : Serves log h) :
    s.number ∈ h.listeners s.key ↔ s ∈ following log := by
  rw [sv.listeners, List.mem_map]
  constructor
  · rintro ⟨⟨key, number⟩, there, rfl⟩
    obtain ⟨there, rfl⟩ := mem_followers.1 there
    exact there
  · exact fun there => ⟨s, mem_followers.2 ⟨there, rfl⟩, rfl⟩

theorem Serves.new (sv : Serves log h) (key : Id) : h.nextReader ∉ h.listeners key := by
  rw [sv.listeners, List.mem_map]
  rintro ⟨s, there, number⟩
  have earlier := sv.number_lt (opened_of_following (mem_followers.1 there).1)
  omega

/-! ## One more act -/

/-- After an act that neither begins nor ends a subscription it is only to be shown that everybody
who follows can still be told what it has to be told. -/
theorem Serves.stay (sv : Serves log h) (silent : x.opened? = none)
    (stays : ∀ s, x.drops s = false) (nextReader : h'.nextReader = h.nextReader)
    (listeners : ∀ key, h'.listeners key = h.listeners key)
    (owes : ∀ s, h.Owes log s → h'.Owes (x :: log) s) : Serves (x :: log) h' where
  numbers := by
    rw [opened_cons, silent, Option.toList_none, List.append_nil, nextReader, sv.numbers]
  listeners key := by
    rw [listeners, sv.listeners, followers, followers, following_cons_of_stays silent stays]
  owes s there := by
    rw [following_cons_of_stays silent stays] at there
    exact owes s (sv.owes s there)

/-- **Who subscribes** is owed nothing yet, and nobody else notices. -/
theorem Serves.subscribe (sv : Serves log h) (key : Id) :
    Serves (⟨.subscribe key, .subscribed ⟨key, h.nextReader⟩⟩ :: log) (h.subscribe key).2 := by
  have first : ⟨key, h.nextReader⟩ ∉ opened log := fun begun =>
    Nat.lt_irrefl _ (sv.number_lt begun)
  have begins : Entry.opened? ⟨.subscribe key, .subscribed ⟨key, h.nextReader⟩⟩ =
    some ⟨key, h.nextReader⟩ := rfl
  refine ⟨?_, fun key' => ?_, fun s there => ?_⟩
  · rw [opened_cons, begins, Option.toList_some, List.map_append, sv.numbers]
    exact List.range_succ.symm
  · rw [listeners_subscribe (sv.new key), sv.listeners, followers, followers,
      following_cons_subscribe first, List.filter_append, List.map_append]
    congr 1
    by_cases own : key' = key
    · simp [own]
    · simp [own, Ne.symm own]
  · rw [following_cons_subscribe first, List.mem_append, List.mem_singleton] at there
    obtain there | rfl := there
    · have begun := opened_of_following there
      have other : Entry.opened? ⟨.subscribe key, .subscribed ⟨key, h.nextReader⟩⟩ ≠ some s :=
        fun same => first (Option.some.inj same ▸ begun)
      exact (sv.owes s there).stay other rfl rfl fun keeps =>
        keeps.subscribe (Nat.ne_of_lt (sv.number_lt begun)) key
    · exact ⟨[], [], told_cons_self begins, got_cons_self begins ▸ .nil, keeps_subscribe h key⟩

/-- **Whose subscription ends** is owed nothing any more, and nobody else notices. -/
theorem Serves.unsubscribe (sv : Serves log h) (s : Subscription) :
    Serves (⟨.unsubscribe s, .done⟩ :: log) (h.unsubscribe s) := by
  refine ⟨?_, fun key => ?_, fun s' there => ?_⟩
  · rw [opened_cons]
    exact (List.append_nil _).symm ▸ sv.numbers
  · rw [listeners_unsubscribe, sv.listeners, followers_cons_unsubscribe, map_number_filter]
  · rw [following_cons_unsubscribe] at there
    obtain ⟨there, stays⟩ := List.mem_filter.1 there
    exact (sv.owes s' there).stay (Option.some_ne_none _).symm rfl rfl fun keeps =>
      keeps.unsubscribe (of_decide_eq_true stays)

/-- **Sending** adds the event to what is owed to those who follow the key. -/
theorem Serves.send (sv : Serves log h) (key : Id) (e : Event) (n : Nat) :
    Serves (⟨.send key e, .reached n⟩ :: log) (h.send key e) := by
  refine sv.stay rfl (fun _ => rfl) rfl (h.listeners_send key e) fun s owed => ?_
  obtain ⟨past, left, told, recounts, keeps⟩ := owed
  have other : Entry.opened? ⟨.send key e, .reached n⟩ ≠ some s := (Option.some_ne_none s).symm
  have sent : (Entry.event? ⟨.send key e, .reached n⟩ s.key).toList =
      if key = s.key then [e] else [] := by
    by_cases own : key = s.key <;> simp [Entry.event?, own]
  refine ⟨past, left ++ if key = s.key then [e] else [], ?_, ?_, keeps.send key e⟩
  · rw [told_cons other, told, sent, List.append_assoc]
  · rw [got_cons other]
    exact (List.append_nil _).symm ▸ recounts

/-- **Reading** takes what is read off what is owed to the reader, and nobody else notices. -/
theorem Serves.read (sv : Serves log h) {ds : List Delivery} (s : Subscription)
    (silent : x.opened? = none) (stays : ∀ s, x.drops s = false) (mute : ∀ key, x.event? key = none)
    (found : ∀ s', x.found s' = if s = s' then ds else [])
    (moved : ∃ next, h' = h.advance s next)
    (reads : ∀ {left}, h.Keeps s left →
      ∃ now later, left = now ++ later ∧ Recounts ds now ∧ h'.Keeps s later) :
    Serves (x :: log) h' := by
  obtain ⟨next, rfl⟩ := moved
  refine sv.stay silent stays rfl (h.listeners_advance s next) fun s' owed => ?_
  have other : x.opened? ≠ some s' := by simp [silent]
  by_cases own : s = s'
  · subst own
    obtain ⟨past, left, told, recounts, keeps⟩ := owed
    obtain ⟨now, later, rfl, tells, keeps'⟩ := reads keeps
    refine ⟨past ++ now, later, ?_, ?_, keeps'⟩
    · rw [told_cons other, mute, Option.toList_none, List.append_nil, told, List.append_assoc]
    · rw [got_cons other, found, if_pos rfl]
      exact recounts.append tells
  · exact owed.stay other (mute _) ((found s').trans (if_neg own)) fun keeps =>
      keeps.advance (Ne.symm own) next

/-- **Pruning** takes nothing away from anybody. -/
theorem Serves.prune (sv : Serves log h) : Serves (⟨.prune, .done⟩ :: log) h.prune :=
  sv.stay rfl (fun _ => rfl) rfl h.listeners_prune fun _ owed =>
    owed.stay (Option.some_ne_none _).symm rfl rfl fun keeps => keeps.prune

/-- **Every act** keeps a hub in agreement with its record. -/
theorem Serves.next (sv : Serves log h) (a : Act) :
    Serves (⟨a, (h.perform a).1⟩ :: log) (h.perform a).2 := by
  cases a with
  | subscribe key => exact sv.subscribe key
  | unsubscribe s => exact sv.unsubscribe s
  | send key e => exact sv.send key e _
  | take s =>
    refine sv.read s rfl (fun _ => rfl) (fun _ => rfl) (fun _ => rfl) (h.exists_advance s).2 ?_
    intro left keeps
    obtain ⟨-, now, later, parts, tells, rest, -⟩ := keeps.take
    exact ⟨now, later, parts, tells, rest⟩
  | receive s =>
    refine sv.read s rfl (fun _ => rfl) (fun _ => rfl) (fun _ => rfl) (h.exists_advance s).1 ?_
    intro left keeps
    obtain ⟨all, rest⟩ := keeps.receive
    exact ⟨left, [], (List.append_nil _).symm, all ▸ recounts_backlog left, rest⟩
  | prune => exact sv.prune

/-- So it is after every row of acts. -/
theorem serves_after (acts : List Act) : Serves (record acts) (after acts) := by
  induction acts using List.reverseRecOn with
  | nil => exact serves_empty
  | append_singleton acts a ih =>
    rw [record_snoc, after_snoc]
    exact ih.next a

/-! ## The record tells the answers -/

/-- What is answered according to the record. -/
def answer (log : Log) : Act → Answer
  | .subscribe key => .subscribed ⟨key, (opened log).length⟩
  | .unsubscribe _ => .done
  | .send key _ => .reached (followers log key).length
  | .take s =>
    .got (if s ∈ following log then (backlog (unread log s)).head?.toList else [])
  | .receive s => .got (if s ∈ following log then backlog (unread log s) else [])
  | .prune => .done

/-- Pruning makes no difference. -/
theorem answer_unpruned (log : Log) (a : Act) : answer (unpruned log) a = answer log a := by
  cases a <;>
    simp only [answer, unread, followers, opened_unpruned, following_unpruned, told_unpruned,
      got_unpruned]

theorem Serves.reached (sv : Serves log h) (key : Id) :
    h.audience key = (followers log key).length := by
  rw [audience_eq, sv.listeners, List.length_map]

theorem Serves.stranger (sv : Serves log h) (out : s ∉ following log) :
    h.receive s = ([], h) ∧ h.take s = (none, h) :=
  read_of_stranger (mt sv.mem_listeners.1 out)

/-- **The record alone tells the answers.** -/
theorem Serves.answer (sv : Serves log h) (a : Act) : (h.perform a).1 = answer log a := by
  cases a with
  | subscribe key => rw [Hub.answer, sv.length_opened]; rfl
  | send key e => rw [Hub.answer, ← sv.reached]; rfl
  | take s =>
    rw [Hub.answer, perform]
    split
    · next there => rw [(sv.owes s there).unread.1.take.1]
    · next out => rw [(sv.stranger out).2, Option.toList_none]
  | receive s =>
    rw [Hub.answer, perform]
    split
    · next there => rw [(sv.owes s there).unread.1.receive.1]
    · next out => rw [(sv.stranger out).1]
  | _ => rfl

/-- Leaving out that the hub was pruned leaves the rest of the record as it is. -/
theorem unpruned_record (acts : List Act) :
    unpruned (record acts) = record (acts.filter fun a => !a.prunes) := by
  induction acts using List.reverseRecOn with
  | nil => rfl
  | append_singleton acts a ih =>
    rw [record_snoc, List.filter_append]
    cases prunes : a.prunes with
    | true =>
      rw [unpruned_cons_of_prunes prunes, ih]
      simp [prunes]
    | false =>
      have same : ((after acts).perform a).1 =
          ((after (acts.filter fun a => !a.prunes)).perform a).1 := by
        rw [(serves_after _).answer, (serves_after _).answer, ← ih, answer_unpruned]
      rw [unpruned_cons prunes, ih, List.filter_cons_of_pos (by simp [prunes]), List.filter_nil,
        record_snoc, same]

/-! ## Channels -/

/-- An act other than pruning opens a channel at most, and none but the one that is asked for. -/
theorem mem_keys_perform {a : Act} (stays : a.prunes = false) :
    key ∈ (h.perform a).2.channels.keys ↔ key ∈ h.channels.keys ∨ a = .subscribe key := by
  cases a with
  | subscribe key' =>
    rw [perform, Hub.subscribe, Table.keys_insert, Act.subscribe.injEq]
    split
    · next known => exact ⟨.inl, fun there => there.elim id fun same => same ▸ known⟩
    · rw [List.mem_append, List.mem_singleton, eq_comm]
  | unsubscribe s => rw [perform, Hub.unsubscribe, Table.keys_modify]; simp
  | send key' e => rw [perform, notify, Hub.send, Table.keys_modify]; simp
  | take s =>
    obtain ⟨next, moved⟩ := (h.exists_advance s).2
    rw [perform, moved, Hub.advance, Table.keys_modify]
    simp
  | receive s =>
    obtain ⟨next, moved⟩ := (h.exists_advance s).1
    rw [perform, moved, Hub.advance, Table.keys_modify]
    simp
  | prune => cases stays

/-- Pruning may leave fewer channels, and never more. -/
theorem keys_after_subset (acts : List Act) :
    (after acts).channels.keys ⊆ (after (acts.filter fun a => !a.prunes)).channels.keys := by
  induction acts using List.reverseRecOn with
  | nil => exact fun _ there => there
  | append_singleton acts a ih =>
    intro key there
    rw [after_snoc] at there
    cases prunes : a.prunes with
    | true =>
      cases a with
      | prune =>
        rw [List.filter_append, List.filter_cons_of_neg (by simp [prunes]), List.filter_nil,
          List.append_nil]
        exact ih (keys_prune_subset _ there)
      | _ => cases prunes
    | false =>
      rw [List.filter_append, List.filter_cons_of_pos (by simp [prunes]), List.filter_nil,
        after_snoc, mem_keys_perform prunes]
      exact ((mem_keys_perform prunes).1 there).imp_left fun old => ih old

theorem channelCount_eq (h : Hub) : h.channelCount = h.channels.keys.length :=
  h.channels.size_eq_length_keys

/-- Right after pruning there is a channel for each key that is followed. -/
theorem Serves.channelCount_prune (sv : Serves log h) :
    h.prune.channelCount = ((following log).map Subscription.key).dedup.length := by
  rw [channelCount_eq]
  refine ((List.perm_ext_iff_of_nodup h.prune.channels.nodup (List.nodup_dedup _)).2 ?_).length_eq
  intro key
  calc key ∈ h.prune.channels.keys
      ↔ followers log key ≠ [] := by rw [mem_keys_prune, sv.listeners, ne_eq, List.map_eq_nil_iff]
    _ ↔ ∃ s, s ∈ followers log key :=
      ⟨List.exists_mem_of_ne_nil _, fun ⟨_, there⟩ => List.ne_nil_of_mem there⟩
    _ ↔ key ∈ ((following log).map Subscription.key).dedup := by
      simp only [mem_followers, List.mem_dedup, List.mem_map]

/-- **Nobody can tell whether a hub was pruned.** Whatever a hub is asked for, everything that it
answers is what it would have answered if it had never been pruned; there may only be fewer channels
than there would be, and right after pruning there is one for each key that is followed.

The number that comes back when an event is sent is the number of those who follow its key. Each of
them, and nobody else, finds the event behind all that it had left to read. What anybody who follows
has read so far accounts for the first of the events that were sent to its key since it subscribed,
in order, and what is left to read are all the others, of which the oldest are lost if they are more
than a channel keeps. The channel of a key that is followed is never dropped. -/
theorem pruning_unobservable (acts : List Act) :
    let log := record acts
    let hub := after acts
    let others := acts.filter fun a => !a.prunes
    unpruned log = record others ∧
      hub.channelCount ≤ (after others).channelCount ∧
      hub.prune.channelCount = ((following log).map Subscription.key).dedup.length ∧
      (∀ key e, (hub.notify key e).1 = (followers log key).length) ∧
      (∀ s ∈ following log, ∃ past left,
        s.key ∈ hub.channels.keys ∧ told log s = past ++ left ∧ Recounts (got log s) past ∧
        (hub.receive s).1 = backlog left ∧ (hub.take s).1 = (backlog left).head? ∧
        ∀ key e, ((hub.notify key e).2.receive s).1 =
          backlog (left ++ if key = s.key then [e] else [])) ∧
      ∀ s ∉ following log, (hub.receive s).1 = [] ∧ (hub.take s).1 = none ∧
        ∀ key e, ((hub.notify key e).2.receive s).1 = [] := by
  intro log hub others
  have sv : Serves log hub := serves_after acts
  refine ⟨unpruned_record acts, ?_, sv.channelCount_prune, fun key _ => sv.reached key,
    fun s there => ?_, fun s out => ?_⟩
  · rw [channelCount_eq, channelCount_eq]
    exact (List.subperm_of_subset hub.channels.nodup (keys_after_subset acts)).length_le
  · obtain ⟨past, left, told, recounts, keeps⟩ := sv.owes s there
    exact ⟨past, left, keeps.mem_keys, told, recounts, keeps.receive.1, keeps.take.1,
      fun key e => (keeps.send key e).receive.1⟩
  · have stranger := sv.stranger out
    refine ⟨congrArg Prod.fst stranger.1, congrArg Prod.fst stranger.2, fun key e => ?_⟩
    have out' : s ∉ following (⟨.send key e, .reached 0⟩ :: log) := by
      rwa [following_cons_of_stays rfl fun _ => rfl]
    exact congrArg Prod.fst ((sv.send key e 0).stranger out').1

/-- Ann and Bob follow a key each, and Bob leaves. Pruning drops his channel, and Ann, who has read
the event that came before, finds the one that comes after. -/
theorem pruning_unobservable_to_ann :
    let ann : Subscription := ⟨⟨0, 0⟩, 0⟩
    let bob : Subscription := ⟨⟨0, 1⟩, 1⟩
    let before : Event := .resourceAdded ann.key none
    let later : Event := .reservationCancelled ann.key "ann"
    let acts : List Act := [.subscribe ann.key, .subscribe bob.key, .send ann.key before,
      .unsubscribe bob, .take ann, .prune, .send ann.key later]
    let log := record acts
    let hub := after acts
    (ann ∈ following log ∧ told log ann = [before, later] ∧ got log ann = [.event before] ∧
      ∃ past left, told log ann = past ++ left ∧ Recounts (got log ann) past ∧
        (hub.receive ann).1 = backlog left) ∧
      (bob ∉ following log ∧ (hub.receive bob).1 = []) ∧
      hub.channelCount = 1 ∧ (after (acts.filter fun a => !a.prunes)).channelCount = 2 := by
  intro ann bob before later acts log hub
  obtain ⟨-, -, -, -, follows, out⟩ := pruning_unobservable acts
  have there : ann ∈ following log := by decide +kernel
  have gone : bob ∉ following log := by decide +kernel
  obtain ⟨past, left, -, told, recounts, receive, -⟩ := follows ann there
  exact ⟨⟨there, rfl, rfl, past, left, told, recounts, receive⟩, ⟨gone, (out bob gone).1⟩,
    by decide +kernel, by decide +kernel⟩

end Hub

end Tenure
