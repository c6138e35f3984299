import CanglingBroker.Foundation.Dict
import CanglingBroker.Topic

/-!
# Notifications of fresh messages

`QueueNotifications` has one watch channel for each topic that somebody subscribes to by
name, and one for all wildcard filters.  A channel is its version: a send raises it, and
`changed` returns as soon as there is a newer one than the receiver has seen.
-/

namespace CanglingBroker

open Foundation
open Dict (lookup_insert)

/-- The versions of the channels. -/
structure QueueNotifications where
  topics : Dict String Nat
  global : Option Nat

/-- The channel a receiver listens to: that of a topic, or the one of all wildcard
filters. -/
def channelOf (filter : String) : Option String :=
  if isWildcardFilter filter then none else some filter

namespace QueueNotifications

def empty : QueueNotifications :=
  ⟨∅, none⟩

def version (notifications : QueueNotifications) : Option String → Option Nat
  | none => notifications.global
  | some topic => notifications.topics.lookup topic

def setVersion (notifications : QueueNotifications) (new : Nat) :
    Option String → QueueNotifications
  | none => { notifications with global := some new }
  | some topic => { notifications with topics := notifications.topics.insert topic new }

/-- `QueueNotifications::subscribe`: the version that counts as seen. -/
def subscribe (notifications : QueueNotifications) (filter : String) :
    Nat × QueueNotifications :=
  match notifications.version (channelOf filter) with
  | some current => (current, notifications)
  | none => (0, notifications.setVersion 0 (channelOf filter))

/-- One of the two sends of `QueueNotifications::notify`. -/
def raise (notifications : QueueNotifications) (channel : Option String) :
    QueueNotifications :=
  match notifications.version channel with
  | some current => notifications.setVersion (current + 1) channel
  | none => notifications

theorem version_setVersion (notifications : QueueNotifications) (new : Nat)
    (channel other : Option String) :
    (notifications.setVersion new channel).version other =
      if other = channel then some new else notifications.version other := by
  cases channel with
  | none =>
    cases other with
    | none => rfl
    | some => rfl
  | some =>
    cases other with
    | none => rfl
    | some =>
      rw [setVersion, version, lookup_insert]
      simp only [Option.some.injEq]
      rfl

theorem version_subscribe (notifications : QueueNotifications) (filter : String) :
    (notifications.subscribe filter).2.version (channelOf filter) =
      some (notifications.subscribe filter).1 := by
  unfold subscribe
  split
  · next known => exact known
  · rw [version_setVersion, if_pos rfl]

variable {notifications : QueueNotifications}

theorem version_subscribe_of_some {channel : Option String}
    {current : Nat} (known : notifications.version channel = some current) (filter : String) :
    (notifications.subscribe filter).2.version channel = some current := by
  unfold subscribe
  split
  · exact known
  · next unknown =>
    rw [version_setVersion, if_neg]
    · exact known
    · rintro rfl
      cases known.symm.trans unknown

theorem version_raise {other : Option String} {current : Nat}
    (known : notifications.version other = some current) (channel : Option String) :
    (notifications.raise channel).version other =
      some (if other = channel then current + 1 else current) := by
  unfold raise
  split
  · next value found =>
    rw [version_setVersion]
    split
    · next same =>
      rw [same] at known
      rw [Option.some.inj (found.symm.trans known)]
    · exact known
  · next unknown =>
    rw [if_neg]
    · exact known
    · rintro rfl
      cases known.symm.trans unknown

end QueueNotifications

/-- A receiver of a watch channel. -/
structure WatchReceiver where
  channel : Option String
  seen : Nat
  deriving DecidableEq, Repr

def WatchReceiver.hasChanged (receiver : WatchReceiver) (notifications : QueueNotifications) :
    Bool :=
  (notifications.version receiver.channel).any fun current =>
    decide (receiver.seen ≠ current)

/-- `changed` has returned. -/
def WatchReceiver.look (receiver : WatchReceiver) (notifications : QueueNotifications) :
    WatchReceiver :=
  { receiver with seen := (notifications.version receiver.channel).getD receiver.seen }

end CanglingBroker
