import Tenure.Proofs.Following.Channels

/-!
# Histories of a hub

A hub is asked for one thing after the other (`Hub.Act`): somebody subscribes or drops a
subscription, events are sent, subscribers read, and now and then the hub is pruned. What it answers
is kept on record (`Hub.Log`), and the record alone tells who follows what (`Hub.following`), which
events one who follows has to be told (`Hub.told`) and what it has been told (`Hub.got`), without a
word about channels.

That the hub was pruned makes no difference to any of this (`Hub.following_unpruned`,
`Hub.told_unpruned`, `Hub.got_unpruned`).
-/

namespace Tenure

namespace Hub

/-! ## Acts and their record -/

/-- What a hub may be asked for. -/
inductive Act where
  /-- somebody is to follow a key -/
  | subscribe (key : Id)
  /-- a subscription is to end -/
  | unsubscribe (s : Subscription)
  /-- an event is to be sent -/
  | send (key : Id) (e : Event)
  /-- a subscriber is to read one thing -/
  | take (s : Subscription)
  /-- a subscriber is to read everything -/
  | receive (s : Subscription)
  /-- channels that nobody follows are to be dropped -/
  | prune

/-- What it answers. -/
inductive Answer where
  /-- the new subscription -/
  | subscribed (s : Subscription)
  /-- how many an event has reached -/
  | reached (n : Nat)
  /-- what a subscriber has read -/
  | got (ds : List Delivery)
  /-- it was done -/
  | done

/-- Does what it is asked for. -/
def perform (h : Hub) : Act → Answer × Hub
  | .subscribe key => (.subscribed (h.subscribe key).1, (h.subscribe key).2)
  | .unsubscribe s => (.done, h.unsubscribe s)
  | .send key e => (.reached (h.notify key e).1, (h.notify key e).2)
  | .take s => (.got (h.take s).1.toList, (h.take s).2)
  | .receive s => (.got (h.receive s).1, (h.receive s).2)
  | .prune => (.done, h.prune)

/-- An act with its answer. -/
structure Entry where
  /-- what the hub was asked for -/
  act : Act
  /-- what it has answered -/
  answer : Answer

/-- What happened, the newest first. -/
abbrev Log := List Entry

/-- Does one more thing and keeps it on record. -/
def play (p : Log × Hub) (a : Act) : Log × Hub :=
  (⟨a, (p.2.perform a).1⟩ :: p.1, (p.2.perform a).2)

/-- What is on record after a row of acts. -/
def record (acts : List Act) : Log := (acts.foldl play ([], Hub.empty)).1

/-- The hub after a row of acts. -/
def after (acts : List Act) : Hub := (acts.foldl play ([], Hub.empty)).2

theorem record_snoc (acts : List Act) (a : Act) :
    record (acts ++ [a]) = ⟨a, ((after acts).perform a).1⟩ :: record acts := by
  rw [record, List.foldl_concat, play]
  rfl

theorem after_snoc (acts : List Act) (a : Act) :
    after (acts ++ [a]) = ((after acts).perform a).2 := by
  rw [after, List.foldl_concat, play]
  rfl

/-! ## What the record tells -/

/-- The subscription that has begun. -/
def Entry.opened? : Entry → Option Subscription
  | ⟨.subscribe _, .subscribed s⟩ => some s
  | _ => none

/-- Whether a subscription has ended. -/
def Entry.drops (x : Entry) (s : Subscription) : Bool :=
  match x.act with
  | .unsubscribe s' => s' = s
  | _ => false

/-- The event that was sent, if it was sent to `key`. -/
def Entry.event? (x : Entry) (key : Id) : Option Event :=
  match x.act with
  | .send key' e => if key' = key then some e else none
  | _ => none

/-- What a subscriber has found. -/
def Entry.found (s : Subscription) : Entry → List Delivery
  | ⟨.take s', .got ds⟩ => if s' = s then ds else []
  | ⟨.receive s', .got ds⟩ => if s' = s then ds else []
  | _ => []

/-- The subscriptions that have begun, in order. -/
def opened (log : Log) : List Subscription := (log.filterMap Entry.opened?).reverse

/-- What happened since a subscription began, the newest first. -/
def since (log : Log) (s : Subscription) : Log := log.takeWhile fun x => x.opened? ≠ some s

/-- Those who follow: their subscriptions have begun and not ended since. -/
def following (log : Log) : List Subscription :=
  (opened log).filter fun s => !(since log s).any fun x => x.drops s

/-- Those who follow a key. -/
def followers (log : Log) (key : Id) : List Subscription := (following log).filter (·.key = key)

/-- The events that were sent to a subscriber's key since it subscribed, in order. -/
def told (log : Log) (s : Subscription) : List Event :=
  ((since log s).filterMap fun x => x.event? s.key).reverse

/-- What a subscriber has read, in order. -/
def got (log : Log) (s : Subscription) : List Delivery :=
  (since log s).reverse.flatMap (Entry.found s)

/-- What a subscriber has not read yet of the events that it has to be told. -/
def unread (log : Log) (s : Subscription) : List Event :=
  (told log s).drop (spanned (got log s))

variable {log : Log} {x : Entry} {s : Subscription} {key : Id}

/-! ## One more entry -/

theorem mem_followers : s ∈ followers log key ↔ s ∈ following log ∧ s.key = key := by
  rw [followers, List.mem_filter, decide_eq_true_eq]

theorem opened_of_following (h : s ∈ following log) : s ∈ opened log := (List.mem_filter.1 h).1

theorem opened_cons (x : Entry) (log : Log) :
    opened (x :: log) = opened log ++ x.opened?.toList := by
  rw [opened, List.filterMap_cons, opened]
  cases x.opened? with
  | none => exact (List.append_nil _).symm
  | some s => exact List.reverse_cons

theorem since_cons_self (begins : x.opened? = some s) : since (x :: log) s = [] := by
  rw [since, List.takeWhile_cons, if_neg (by simp [begins])]

theorem since_cons (other : x.opened? ≠ some s) : since (x :: log) s = x :: since log s := by
  rw [since, List.takeWhile_cons, if_pos (by simp [other]), since]

theorem told_cons_self (begins : x.opened? = some s) : told (x :: log) s = [] := by
  rw [told, since_cons_self begins]
  rfl

theorem told_cons (other : x.opened? ≠ some s) :
    told (x :: log) s = told log s ++ (x.event? s.key).toList := by
  rw [told, since_cons other, List.filterMap_cons, told]
  cases x.event? s.key with
  | none => exact (List.append_nil _).symm
  | some e => exact List.reverse_cons

theorem got_cons_self (begins : x.opened? = some s) : got (x :: log) s = [] := by
  rw [got, since_cons_self begins]
  rfl

theorem got_cons (other : x.opened? ≠ some s) :
    got (x :: log) s = got log s ++ x.found s := by
  rw [got, since_cons other, List.reverse_cons, List.flatMap_append, List.flatMap_singleton, got]

/-- Who follows after something else than a subscription. -/
theorem following_cons (silent : x.opened? = none) :
    following (x :: log) = (following log).filter fun s => !x.drops s := by
  rw [following, opened_cons, silent, Option.toList_none, List.append_nil, following,
    List.filter_filter]
  refine List.filter_congr fun s _ => ?_
  rw [since_cons (by simp [silent]), List.any_cons, Bool.not_or]

theorem following_cons_of_stays (silent : x.opened? = none) (stays : ∀ s, x.drops s = false) :
    following (x :: log) = following log := by
  rw [following_cons silent]
  exact List.filter_eq_self.2 fun s _ => by rw [stays, Bool.not_false]

/-- **Whoever subscribes** follows from then on. -/
theorem following_cons_subscribe (new : s ∉ opened log) :
    following (⟨.subscribe key, .subscribed s⟩ :: log) = following log ++ [s] := by
  have begins : Entry.opened? ⟨.subscribe key, .subscribed s⟩ = some s := rfl
  rw [following, opened_cons, begins, Option.toList_some, List.filter_append, following]
  congr 1
  · refine List.filter_congr fun s' old => ?_
    have other : Entry.opened? ⟨.subscribe key, .subscribed s⟩ ≠ some s' := fun same =>
      new (Option.some.inj same ▸ old)
    rw [since_cons other, List.any_cons]
    rfl
  · rw [List.filter_cons_of_pos (by rw [since_cons_self begins]; rfl), List.filter_nil]

/-- **Whose subscription ends** follows no more. -/
theorem following_cons_unsubscribe (s : Subscription) (log : Log) (r : Answer) :
    following (⟨.unsubscribe s, r⟩ :: log) = (following log).filter (· ≠ s) := by
  rw [following_cons (by cases r <;> rfl)]
  refine List.filter_congr fun s' _ => ?_
  rw [Entry.drops, ← decide_not]
  exact decide_eq_decide.2 ne_comm

theorem followers_cons_unsubscribe (s : Subscription) (log : Log) (r : Answer) (key : Id) :
    followers (⟨.unsubscribe s, r⟩ :: log) key = (followers log key).filter (· ≠ s) := by
  rw [followers, following_cons_unsubscribe, List.filter_comm, followers]

/-- Followers of a key are told apart by their numbers. -/
theorem map_number_filter (log : Log) (key : Id) (s : Subscription) :
    ((followers log key).filter (· ≠ s)).map Subscription.number =
      if key = s.key then ((followers log key).map Subscription.number).filter (· ≠ s.number)
      else (followers log key).map Subscription.number := by
  have same : ∀ s' ∈ followers log key, (s' = s ↔ key = s.key ∧ s'.number = s.number) := by
    intro s' there
    obtain ⟨-, rfl⟩ := mem_followers.1 there
    exact Subscription.ext_iff
  split
  · next own =>
    rw [List.filter_map]
    refine congrArg _ (List.filter_congr fun s' there => decide_eq_decide.2 (not_congr ?_))
    exact (same s' there).trans (and_iff_right own)
  · next apart =>
    have all : (followers log key).filter (· ≠ s) = followers log key :=
      List.filter_eq_self.2 fun s' there =>
        decide_eq_true fun e => apart ((same s' there).1 e).1
    rw [all]

/-! ## Leaving out that the hub was pruned -/

/-- Whether channels are to be dropped. -/
def Act.prunes : Act → Bool
  | .prune => true
  | _ => false

/-- The record without the times when the hub was pruned. -/
def unpruned (log : Log) : Log := log.filter fun x => !x.act.prunes

/-- Pruning is on record as nothing else. -/
theorem silent_of_prunes (h : x.act.prunes = true) :
    x.opened? = none ∧ (∀ s, x.drops s = false) ∧ (∀ key, x.event? key = none) ∧
      ∀ s, x.found s = [] := by
  obtain ⟨a, r⟩ := x
  cases a with
  | prune => exact ⟨rfl, fun _ => rfl, fun _ => rfl, fun _ => rfl⟩
  | _ => cases h

theorem unpruned_cons_of_prunes (h : x.act.prunes = true) : unpruned (x :: log) = unpruned log :=
  List.filter_cons_of_neg (by simp [h])

theorem unpruned_cons (h : x.act.prunes = false) : unpruned (x :: log) = x :: unpruned log :=
  List.filter_cons_of_pos (by simp [h])

theorem flatMap_unpruned {α : Type} {f : Entry → List α}
    (silent : ∀ x : Entry, x.act.prunes = true → f x = []) (log : Log) :
    (unpruned log).flatMap f = log.flatMap f := by
  induction log with
  | nil => rfl
  | cons x log ih =>
    cases prunes : x.act.prunes with
    | true =>
      rw [unpruned_cons_of_prunes prunes, List.flatMap_cons, silent x prunes, List.nil_append, ih]
    | false => rw [unpruned_cons prunes, List.flatMap_cons, List.flatMap_cons, ih]

theorem filterMap_unpruned {α : Type} {f : Entry → Option α}
    (silent : ∀ x : Entry, x.act.prunes = true → f x = none) (log : Log) :
    (unpruned log).filterMap f = log.filterMap f := by
  rw [List.filterMap_eq_flatMap_toList, List.filterMap_eq_flatMap_toList]
  exact flatMap_unpruned (fun x prunes => by rw [silent x prunes, Option.toList_none]) log

theorem since_unpruned (log : Log) (s : Subscription) :
    since (unpruned log) s = unpruned (since log s) := by
  induction log with
  | nil => rfl
  | cons x log ih =>
    cases prunes : x.act.prunes with
    | true =>
      have other : x.opened? ≠ some s := by simp [(silent_of_prunes prunes).1]
      rw [unpruned_cons_of_prunes prunes, since_cons other, unpruned_cons_of_prunes prunes, ih]
    | false =>
      rw [unpruned_cons prunes]
      by_cases begins : x.opened? = some s
      · rw [since_cons_self begins, since_cons_self begins]
        rfl
      · rw [since_cons begins, since_cons begins, unpruned_cons prunes, ih]

theorem opened_unpruned (log : Log) : opened (unpruned log) = opened log := by
  rw [opened, filterMap_unpruned (fun x prunes => (silent_of_prunes prunes).1), opened]

/-- **Who follows what** does not depend on pruning. -/
theorem following_unpruned (log : Log) : following (unpruned log) = following log := by
  rw [following, opened_unpruned, following]
  refine List.filter_congr fun s _ => ?_
  rw [since_unpruned, unpruned, List.any_filter]
  congr 2
  funext x
  cases prunes : x.act.prunes with
  | true => rw [(silent_of_prunes prunes).2.1, Bool.and_false]
  | false => rw [Bool.not_false, Bool.true_and]

/-- What a follower has to be told does not depend on pruning. -/
theorem told_unpruned (log : Log) (s : Subscription) : told (unpruned log) s = told log s := by
  rw [told, since_unpruned, filterMap_unpruned (fun x prunes => (silent_of_prunes prunes).2.2.1 _),
    told]

/-- What a follower has been told is on record without it. -/
theorem got_unpruned (log : Log) (s : Subscription) : got (unpruned log) s = got log s := by
  rw [got, since_unpruned, unpruned, ← List.filter_reverse, got]
  exact flatMap_unpruned (fun x prunes => (silent_of_prunes prunes).2.2.2 s) _

end Hub

end Tenure
