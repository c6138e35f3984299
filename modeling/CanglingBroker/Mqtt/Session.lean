import CanglingBroker.Delivery.Calls
import CanglingBroker.Mqtt.Codec

/-!
# One MQTT session

`mqtt/session.rs`: what the loop of a session does with a message that is to go out and
with a packet that came in.  Each turn says what the session asked of its surroundings.
The tokens of a session are numbered in the order in which it made them.
-/

namespace CanglingBroker
namespace Mqtt

open Foundation

def subackFailure : UInt8 :=
  0x80

/-- `SessionState`, with how many tokens it has made. -/
structure SessionState where
  qosByTopic : Dict String UInt8
  inflightPub : Dict UInt16 (String × String)
  nextPacketId : UInt16
  subscriptions : Dict String Nat
  tokens : Nat

def SessionState.fresh : SessionState where
  qosByTopic := ∅
  inflightPub := ∅
  nextPacketId := 0
  subscriptions := ∅
  tokens := 0

inductive WriteJob where
  | packet (packet : Packet)
  | deliver (packet : Packet) (ack : Option (String × String))
  deriving DecidableEq, Repr

/-- What a session asks of its surroundings: a job for the writer, the completion of a
delivery that is in flight, a publish for the ingest worker, the end of a subscription
and the loop of a new one. -/
inductive SessionEffect where
  | queued (job : WriteJob)
  | completed (messageId lease : String)
  | ingested (publish : Publish)
  | cancelled (token : Nat)
  | subscribed (topic : String) (token : Nat)
  deriving DecidableEq, Repr

/-- What `try_send` says to a publish. -/
inductive IngestAnswer where
  | taken
  | full
  | closed
  deriving DecidableEq, Repr

/-- How the surroundings answer during one turn: whether the writer still takes jobs,
what the ingest worker says, and for which filters of a SUBSCRIBE, by their positions,
the database notes the topic. -/
structure Surroundings where
  writerOpen : Bool := true
  ingest : IngestAnswer := .taken
  noted : Nat → Bool := fun _ => true

def queueJob (around : Surroundings) (job : WriteJob) :
    Except String (List SessionEffect) :=
  if around.writerOpen then .ok [.queued job] else .error "mqtt writer closed"

def queuePacket (around : Surroundings) (packet : Packet) :
    Except String (List SessionEffect) :=
  queueJob around (.packet packet)

/-! ## Messages that go out -/

def grantedQos (qosByTopic : Dict String UInt8) (publishedTopic : String) : UInt8 :=
  let granted :=
    (qosByTopic.entries.filter fun entry => filterMatches entry.1 publishedTopic).map
      fun entry => entry.2
  min (granted.max?.getD 0) 1

def followingId (next : UInt16) : UInt16 :=
  if next = 65535 then 1 else next + 1

/-- The loop of `alloc_packet_id`, for so many rounds. -/
def searchPacketId (used : Dict UInt16 (String × String)) : Nat → UInt16 → UInt16
  | 0, next => next
  | rounds + 1, next =>
    if (used.lookup (followingId next)).isSome then
      searchPacketId used rounds (followingId next)
    else
      followingId next

/-- `alloc_packet_id`: what it returns is also what it leaves in the counter. -/
def allocPacketId (next : UInt16) (used : Dict UInt16 (String × String)) : UInt16 :=
  searchPacketId used 65535 next

/-- The job of `queue_outgoing` for a message, and the state with what it noted about
it. -/
def outgoingJob (state : SessionState) (message : SatwayMessage) :
    SessionState × WriteJob :=
  if grantedQos state.qosByTopic message.topic = 0 then
    (state,
      .deliver
        (.publish
          { dup := false, qos := 0, retain := false, topic := message.topic,
            packetId := none, payload := message.payload })
        (some (message.messageId, message.lease)))
  else
    let packetId := allocPacketId state.nextPacketId state.inflightPub
    ({ state with
        nextPacketId := packetId
        inflightPub := state.inflightPub.insert packetId (message.messageId, message.lease) },
      .deliver
        (.publish
          { dup := false, qos := 1, retain := false, topic := message.topic,
            packetId := some packetId, payload := message.payload })
        none)

def queueOutgoing (around : Surroundings) (state : SessionState) (message : SatwayMessage) :
    Except String (SessionState × List SessionEffect) := do
  let (state, job) := outgoingJob state message
  let effects ← queueJob around job
  return (state, effects)

/-! ## Packets that came in -/

def endSubscription (state : SessionState) (topic : String) : List SessionEffect :=
  (state.subscriptions.lookup topic).toList.map .cancelled

/-- `subscribe_topic`: the code it answers with. -/
def subscribeTopic (noted : Bool) (state : SessionState) (filter : SubscribeFilter) :
    SessionState × UInt8 × List SessionEffect :=
  let topic := Delivery.trimmed filter.topic
  if ¬ isValidSubscribeFilter topic then
    (state, subackFailure, [])
  else if ¬ noted then
    (state, subackFailure, [])
  else
    let granted := min filter.qos 1
    let token := state.tokens
    ({ state with
        qosByTopic := state.qosByTopic.insert topic granted
        subscriptions := (state.subscriptions.erase topic).insert topic token
        tokens := token + 1 },
      granted,
      endSubscription state topic ++ [.subscribed topic token])

/-- The filters of a SUBSCRIBE, from the one at a position on. -/
def subscribeTopics (around : Surroundings) :
    Nat → SessionState → List SubscribeFilter → SessionState × List UInt8 × List SessionEffect
  | _, state, [] => (state, [], [])
  | position, state, filter :: filters =>
    let (state, code, effects) := subscribeTopic (around.noted position) state filter
    let (state, codes, later) := subscribeTopics around (position + 1) state filters
    (state, code :: codes, effects ++ later)

def unsubscribeTopics :
    SessionState → List String → SessionState × List SessionEffect
  | state, [] => (state, [])
  | state, topic :: topics =>
    let effects := endSubscription state topic
    let (state, later) :=
      unsubscribeTopics
        { state with
          subscriptions := state.subscriptions.erase topic
          qosByTopic := state.qosByTopic.erase topic }
        topics
    (state, effects ++ later)

/-- `handle_packet`; the flag says that the session ends. -/
def handlePacket (around : Surroundings) (state : SessionState) :
    Packet → Except String (SessionState × List SessionEffect × Bool)
  | .publish publish =>
    match around.ingest with
    | .taken => .ok (state, [.ingested publish], false)
    | .full => .ok (state, [], false)
    | .closed => .error "mqtt ingest worker closed"
  | .pubAck packetId =>
    match state.inflightPub.lookup packetId with
    | some (messageId, lease) =>
      .ok
        ({ state with inflightPub := state.inflightPub.erase packetId },
          [.completed messageId lease], false)
    | none => .ok (state, [], false)
  | .pubRel packetId => do
      let effects ← queuePacket around (.pubComp packetId)
      return (state, effects, false)
  | .subscribe sub => do
      let (state, codes, effects) := subscribeTopics around 0 state sub.filters
      let queued ← queuePacket around (.subAck { packetId := sub.packetId, codes := codes })
      return (state, effects ++ queued, false)
  | .unsubscribe unsub => do
      let (state, effects) := unsubscribeTopics state unsub.filters
      let queued ← queuePacket around (.unsubAck unsub.packetId)
      return (state, effects ++ queued, false)
  | .pingReq => do
      let effects ← queuePacket around .pingResp
      return (state, effects, false)
  | .disconnect => .ok (state, [], true)
  | .connect _ => .error "duplicate CONNECT"
  | .pubRec _ | .pubComp _ | .connAck _ | .subAck _ | .unsubAck _ | .pingResp =>
    .ok (state, [], false)

/-! ## The turns of a session -/

/-- What the loop of a session takes up. -/
inductive SessionInput where
  | outgoing (message : SatwayMessage)
  | incoming (packet : Packet)
  deriving DecidableEq, Repr

/-- One turn of `session_loop`. -/
def sessionTurn (around : Surroundings) (state : SessionState) :
    SessionInput → Except String (SessionState × List SessionEffect × Bool)
  | .outgoing message => do
      let (state, effects) ← queueOutgoing around state message
      return (state, effects, false)
  | .incoming packet => handlePacket around state packet

end Mqtt
end CanglingBroker
