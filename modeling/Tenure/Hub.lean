import Tenure.Event
import Tenure.Table

/-!
# The hub

Subscribers follow a key, which is a resource or a group, and are sent the events
of that key from then on. A key has a channel once somebody has subscribed to it;
sending to a key without subscribers reaches nobody and stores nothing.

A channel keeps the last 256 events. A subscriber that falls further behind loses
the oldest ones and is told how many it lost.
-/

namespace Tenure

/-- How many events a channel keeps. -/
def channelCapacity : Nat := 256

/-- The events of one key and how far each of its subscribers has read. -/
structure Channel where
  /-- how many events were sent so far -/
  sent : Nat
  /-- the last of them, the newest first -/
  recent : List Event
  /-- for each subscriber how many of the events it has behind it -/
  readers : Table Nat Nat

namespace Channel

/-- A channel nobody has used. -/
protected def empty : Channel := ⟨0, [], Table.empty⟩

/-- Sends an event, which only a channel with subscribers takes note of. -/
def send (c : Channel) (e : Event) : Channel :=
  if c.readers.size = 0 then c
  else { c with sent := c.sent + 1, recent := (e :: c.recent).take channelCapacity }

/-- Sending moves no subscriber. -/
@[simp] theorem keys_readers_send (c : Channel) (e : Event) :
    (c.send e).readers.keys = c.readers.keys := by
  simp only [send]
  split <;> rfl

end Channel

/-- A subscription: the key followed and the subscriber's own number. -/
@[ext]
structure Subscription where
  /-- what is followed -/
  key : Id
  /-- which subscriber follows it -/
  number : Nat
  deriving DecidableEq, Repr

/-- What a subscriber finds when it reads. -/
inductive Delivery where
  /-- an event -/
  | event (e : Event)
  /-- so many events were lost -/
  | lagged (lost : Nat)

/-- All channels. -/
structure Hub where
  /-- the channel of each key that was ever subscribed to and not dropped since -/
  channels : Table Id Channel
  /-- the number of the next subscriber -/
  nextReader : Nat
  /-- every event handed to the hub, heard or not, the newest first -/
  history : List (Id × Event)

namespace Hub

/-- The hub without channels. -/
protected def empty : Hub := ⟨Table.empty, 0, []⟩

instance : Inhabited Hub := ⟨Hub.empty⟩

/-- Follows `key` from now on. -/
def subscribe (h : Hub) (key : Id) : Subscription × Hub :=
  let c := (h.channels.get? key).getD Channel.empty
  let c := { c with readers := c.readers.insert h.nextReader c.sent }
  (⟨key, h.nextReader⟩,
    { h with channels := h.channels.insert key c, nextReader := h.nextReader + 1 })

/-- Ends a subscription; the channel stays until pruned. -/
def unsubscribe (h : Hub) (s : Subscription) : Hub :=
  { h with
    channels := h.channels.modify s.key fun c => { c with readers := c.readers.erase s.number } }

/-- How many subscribers a key has. -/
def audience (h : Hub) (key : Id) : Nat :=
  ((h.channels.get? key).map fun c => c.readers.size).getD 0

/-- Sends an event to everybody who follows `key`. -/
def send (h : Hub) (key : Id) (e : Event) : Hub :=
  { h with
    channels := h.channels.modify key fun c => c.send e
    history := (key, e) :: h.history }

/-- Sending leaves the subscribers alone. -/
theorem readers_send (h : Hub) (key : Id) (e : Event) (key' : Id) :
    ((h.send key e).channels.get? key').map (fun c => c.readers.keys) =
      (h.channels.get? key').map fun c => c.readers.keys := by
  simp only [send, Table.get?_modify]
  split
  · next same =>
    subst same
    simp [Function.comp_def]
  · rfl

/-- Sends an event and tells how many subscribers it has reached. -/
def notify (h : Hub) (key : Id) (e : Event) : Nat × Hub := (h.audience key, h.send key e)

/-- Notes how far a subscriber has read. -/
def advance (h : Hub) (s : Subscription) (next : Nat) : Hub :=
  { h with
    channels := h.channels.modify s.key fun c =>
      { c with readers := c.readers.modify s.number fun _ => next } }

/-- Everything a subscriber has not read yet, the oldest first, and the hub after
it has read it. -/
def receive (h : Hub) (s : Subscription) : List Delivery × Hub :=
  match h.channels.get? s.key with
  | none => ([], h)
  | some c =>
    match c.readers.get? s.number with
    | none => ([], h)
    | some next =>
      let unread := c.sent - next
      let events := ((c.recent.take unread).reverse).map Delivery.event
      let lost := if channelCapacity < unread then [Delivery.lagged (unread - channelCapacity)]
        else []
      (lost ++ events, h.advance s c.sent)

/-- The next thing a subscriber finds, if it has anything left to read, and the hub
after it has read that. Who is told of a loss goes on with the oldest event kept. -/
def take (h : Hub) (s : Subscription) : Option Delivery × Hub :=
  match h.channels.get? s.key with
  | none => (none, h)
  | some c =>
    match c.readers.get? s.number with
    | none => (none, h)
    | some next =>
      let unread := c.sent - next
      if channelCapacity < unread then
        (some (.lagged (unread - channelCapacity)), h.advance s (c.sent - channelCapacity))
      else
        match (c.recent.take unread).getLast? with
        | none => (none, h)
        | some e => (some (.event e), h.advance s (next + 1))

/-- Drops the channels nobody follows any more. -/
def prune (h : Hub) : Hub :=
  { h with
    channels := h.channels.filter fun _ c => 0 < c.readers.size }

/-- Pruning takes nothing away from a key that somebody follows. -/
theorem get?_channels_prune (h : Hub) (key : Id) :
    h.prune.channels.get? key =
      (h.channels.get? key).filter fun c => decide (0 < c.readers.size) := by
  simp only [prune, Table.get?_filter]

/-- How many channels there are. -/
def channelCount (h : Hub) : Nat := h.channels.size

end Hub

end Tenure
