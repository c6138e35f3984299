import CanglingBroker.Foundation.Bytes

/-!
# The MQTT codec

`mqtt/codec.rs`: the packets, how they are written, and how one packet is pulled from
the front of a buffer.  Every index and slice of the source is an access that may lie
outside; a decoding error leaves with its text.
-/

namespace CanglingBroker
namespace Mqtt

open Foundation

def maxPacketSize : Nat :=
  1024 * 1024

/-! ## Packets -/

structure Connect where
  protocolLevel : UInt8
  cleanSession : Bool
  keepAlive : UInt16
  clientId : String
  username : Option String
  password : Option (List UInt8)
  deriving DecidableEq, Repr

structure ConnAck where
  sessionPresent : Bool
  code : UInt8
  deriving DecidableEq, Repr

structure Publish where
  dup : Bool
  qos : UInt8
  retain : Bool
  topic : String
  packetId : Option UInt16
  payload : List UInt8
  deriving DecidableEq, Repr

structure SubscribeFilter where
  topic : String
  qos : UInt8
  deriving DecidableEq, Repr

structure Subscribe where
  packetId : UInt16
  filters : List SubscribeFilter
  deriving DecidableEq, Repr

structure SubAck where
  packetId : UInt16
  codes : List UInt8
  deriving DecidableEq, Repr

structure Unsubscribe where
  packetId : UInt16
  filters : List String
  deriving DecidableEq, Repr

inductive Packet where
  | connect (connect : Connect)
  | connAck (ack : ConnAck)
  | publish (publish : Publish)
  | pubAck (packetId : UInt16)
  | pubRec (packetId : UInt16)
  | pubRel (packetId : UInt16)
  | pubComp (packetId : UInt16)
  | subscribe (sub : Subscribe)
  | subAck (ack : SubAck)
  | unsubscribe (unsub : Unsubscribe)
  | unsubAck (packetId : UInt16)
  | pingReq
  | pingResp
  | disconnect
  deriving DecidableEq, Repr

inductive CodecError where
  | malformed (reason : String)
  | tooLarge
  deriving DecidableEq, Repr

abbrev Decoded (Value : Type) : Type := Reading CodecError Value

/-- `Err(CodecError::Malformed(reason))`. -/
def malformed {Value : Type} (reason : String) : Decoded Value :=
  .error (.rejected (.malformed reason))

theorem safely_malformed {Value : Type} {post : Value → Prop} (reason : String) :
    Safely post (malformed reason : Decoded Value) :=
  safely_rejected _

/-! ## Reading at an offset

Each function returns what it read and the offset behind it. -/

def readU8 (data : List UInt8) (offset : Nat) : Decoded (UInt8 × Nat) :=
  match data[offset]? with
  | none => malformed "truncated"
  | some value => .ok (value, offset + 1)

def readU16 (data : List UInt8) (offset : Nat) : Decoded (UInt16 × Nat) :=
  if data.length < offset + 2 then
    malformed "truncated u16"
  else do
    let high ← byteAt data offset
    let low ← byteAt data (offset + 1)
    return (fromBeBytes high low, offset + 2)

def readMqttBytes (data : List UInt8) (offset : Nat) : Decoded (List UInt8 × Nat) := do
  let (len, offset) ← readU16 data offset
  if data.length < offset + len.toNat then
    malformed "truncated bytes"
  else
    let bytes ← slice data offset (offset + len.toNat)
    return (bytes, offset + len.toNat)

def readMqttString (data : List UInt8) (offset : Nat) : Decoded (String × Nat) := do
  let (bytes, offset) ← readMqttBytes data offset
  match fromUtf8 bytes with
  | none => malformed "utf-8"
  | some text => return (text, offset)

section Reads

variable (data : List UInt8) (offset : Nat)

theorem safely_readU8 :
    Safely (fun read => read.2 = offset + 1 ∧ read.2 ≤ data.length) (readU8 data offset) := by
  unfold readU8
  split
  · exact safely_malformed _
  · next found => exact ⟨rfl, (List.getElem?_eq_some_iff.mp found).1⟩

theorem safely_readU16 : Safely (fun read => read.2 = offset + 2 ∧ read.2 ≤ data.length)
    (readU16 data offset) := by
  unfold readU16
  split
  · exact safely_malformed _
  · next long =>
    refine safely_bind (safely_byteAt (by omega)) fun high _ => ?_
    refine safely_bind (safely_byteAt (by omega)) fun low _ => ?_
    exact ⟨rfl, Nat.not_lt.mp long⟩

theorem safely_readMqttBytes : Safely
    (fun read => read.2 = offset + 2 + read.1.length ∧ read.2 ≤ data.length ∧ read.1.length ≤ 65535)
    (readMqttBytes data offset) := by
  refine safely_bind (safely_readU16 data offset) ?_
  rintro ⟨len, next⟩ ⟨rfl, inside⟩
  dsimp only
  split
  · exact safely_malformed _
  · next long =>
    refine safely_bind (safely_slice (Nat.le_add_right _ _) (Nat.not_lt.mp long)) ?_
    intro bytes taken
    have small := len.toNat_lt
    refine ⟨?_, Nat.not_lt.mp long, ?_⟩ <;> dsimp only <;> omega

theorem safely_readMqttString : Safely
    (fun read => read.2 = offset + 2 + (textBytes read.1).length ∧
      read.2 ≤ data.length ∧ (textBytes read.1).length ≤ 65535)
    (readMqttString data offset) := by
  refine safely_bind (safely_readMqttBytes data offset) ?_
  rintro ⟨bytes, next⟩ read
  dsimp only
  split
  · exact safely_malformed _
  · next decoded =>
    refine safely_ok ?_
    rw [textBytes_of_fromUtf8 decoded]
    exact read

end Reads

/-! ## Writing -/

/-- `push_mqtt_bytes`; a longer value is cut off. -/
def mqttBytes (value : List UInt8) : List UInt8 :=
  let len := min value.length 65535
  beBytes (UInt16.ofNat len) ++ value.take len

/-- `push_mqtt_string`. -/
def mqttString (value : String) : List UInt8 :=
  mqttBytes (textBytes value)

/-- The loop of `encode_remaining_length`. -/
def remainingLengthBytes (len : Nat) : List UInt8 :=
  if len = 0 then
    []
  else
    let byte := UInt8.ofNat (len % 128)
    (if len / 128 = 0 then byte else byte ||| 0x80) :: remainingLengthBytes (len / 128)
termination_by len

def encodeRemainingLength (len : Nat) : List UInt8 :=
  if len = 0 then [0] else remainingLengthBytes len

def wrap (packetType flags : UInt8) (payload : List UInt8) : List UInt8 :=
  ((packetType <<< 4) ||| (flags &&& 0x0f)) :: (encodeRemainingLength payload.length ++ payload)

def connectFlags (connect : Connect) : UInt8 :=
  (if connect.cleanSession then 0x02 else (0 : UInt8)) |||
    (if connect.username.isSome then 0x80 else (0 : UInt8)) |||
    (if connect.password.isSome then 0x40 else (0 : UInt8))

def connectBody (connect : Connect) : List UInt8 :=
  (if connect.protocolLevel = 3 then mqttString "MQIsdp" ++ [3]
    else mqttString "MQTT" ++ [4]) ++
    connectFlags connect :: beBytes connect.keepAlive ++
    mqttString connect.clientId ++
    (connect.username.elim [] mqttString) ++
    (connect.password.elim [] mqttBytes)

def publishFlags (publish : Publish) : UInt8 :=
  (if publish.dup then 0x08 else (0 : UInt8)) ||| (min publish.qos 2 <<< 1) |||
    (if publish.retain then 0x01 else (0 : UInt8))

def publishBody (publish : Publish) : List UInt8 :=
  mqttString publish.topic ++
    (if 0 < min publish.qos 2 then beBytes (publish.packetId.getD 1) else []) ++
    publish.payload

def subscribeBody (sub : Subscribe) : List UInt8 :=
  beBytes sub.packetId ++
    sub.filters.flatMap fun filter => mqttString filter.topic ++ [min filter.qos 2]

def unsubscribeBody (unsub : Unsubscribe) : List UInt8 :=
  beBytes unsub.packetId ++ unsub.filters.flatMap mqttString

/-- The type and the flags of the packet's first byte. -/
def Packet.header : Packet → UInt8 × UInt8
  | .connect _ => (1, 0)
  | .connAck _ => (2, 0)
  | .publish message => (3, publishFlags message)
  | .pubAck _ => (4, 0)
  | .pubRec _ => (5, 0)
  | .pubRel _ => (6, 0x02)
  | .pubComp _ => (7, 0)
  | .subscribe _ => (8, 0x02)
  | .subAck _ => (9, 0)
  | .unsubscribe _ => (10, 0x02)
  | .unsubAck _ => (11, 0)
  | .pingReq => (12, 0)
  | .pingResp => (13, 0)
  | .disconnect => (14, 0)

def Packet.body : Packet → List UInt8
  | .connect request => connectBody request
  | .connAck ack => [if ack.sessionPresent then 1 else 0, ack.code]
  | .publish message => publishBody message
  | .pubAck packetId | .pubRec packetId | .pubRel packetId | .pubComp packetId
  | .unsubAck packetId => beBytes packetId
  | .subscribe sub => subscribeBody sub
  | .subAck ack => beBytes ack.packetId ++ ack.codes
  | .unsubscribe unsub => unsubscribeBody unsub
  | .pingReq | .pingResp | .disconnect => []

def encode (packet : Packet) : List UInt8 :=
  wrap packet.header.1 packet.header.2 packet.body

/-! ## Decoding a body -/

def requirePacketId (payload : List UInt8) : Decoded UInt16 :=
  if payload.length ≠ 2 then
    malformed "packet id"
  else do
    let high ← byteAt payload 0
    let low ← byteAt payload 1
    return fromBeBytes high low

/-- Read if the flag is set. -/
def readIf {Value : Type} (flag : Bool) (offset : Nat) (read : Decoded (Value × Nat)) :
    Decoded (Option Value × Nat) :=
  if flag then do
    let (value, next) ← read
    return (some value, next)
  else
    return (none, offset)

/-- `decode_connect`.  The will is read and dropped. -/
def decodeConnect (payload : List UInt8) : Decoded Connect := do
  let (protocol, offset) ← readMqttString payload 0
  let (level, offset) ← readU8 payload offset
  if ¬ (protocol = "MQTT" ∧ level = 4 ∨ protocol = "MQIsdp" ∧ level = 3) then
    malformed "unsupported protocol"
  else
    let (flags, offset) ← readU8 payload offset
    if flags &&& 0x01 ≠ 0 then
      malformed "CONNECT reserved flag"
    else
      let (keepAlive, offset) ← readU16 payload offset
      let (clientId, offset) ← readMqttString payload offset
      let will := decide (flags &&& 0x04 ≠ 0)
      let (_, offset) ← readIf will offset (readMqttString payload offset)
      let (_, offset) ← readIf will offset (readMqttBytes payload offset)
      let (username, offset) ←
        readIf (flags &&& 0x80 ≠ 0) offset (readMqttString payload offset)
      let (password, _) ← readIf (flags &&& 0x40 ≠ 0) offset (readMqttBytes payload offset)
      return {
        protocolLevel := level
        cleanSession := flags &&& 0x02 ≠ 0
        keepAlive := keepAlive
        clientId := clientId
        username := username
        password := password }

def decodePublish (flags : UInt8) (payload : List UInt8) : Decoded Publish :=
  let qos := (flags >>> 1) &&& 0x03
  if 2 < qos then
    malformed "PUBLISH QoS"
  else do
    let (topic, offset) ← readMqttString payload 0
    let (packetId, offset) ← readIf (0 < qos) offset (readU16 payload offset)
    let content ← slice payload offset payload.length
    return {
      dup := flags &&& 0x08 ≠ 0
      qos := qos
      retain := flags &&& 0x01 ≠ 0
      topic := topic
      packetId := packetId
      payload := content }

/-- One round of the loop of `decode_subscribe`. -/
def readSubscribeFilter (payload : List UInt8) (offset : Nat) :
    Decoded (SubscribeFilter × Nat) := do
  let (topic, offset) ← readMqttString payload offset
  let (qos, offset) ← readU8 payload offset
  if 2 < qos then
    malformed "SUBSCRIBE QoS"
  else
    return (⟨topic, qos⟩, offset)

variable (payload : List UInt8)

theorem safely_readSubscribeFilter (offset : Nat) : Safely
    (fun read => read.2 = offset + 3 + (textBytes read.1.topic).length ∧
      read.2 ≤ payload.length ∧ (textBytes read.1.topic).length ≤ 65535 ∧ read.1.qos ≤ 2)
    (readSubscribeFilter payload offset) := by
  refine safely_bind (safely_readMqttString payload offset) ?_
  rintro ⟨topic, next⟩ ⟨(rfl : next = offset + 2 + (textBytes topic).length), _, short⟩
  refine safely_bind (safely_readU8 payload _) ?_
  rintro ⟨qos, last⟩ ⟨rfl, inside⟩
  dsimp only
  split
  · exact safely_malformed _
  · next low =>
    refine ⟨?_, inside, short, UInt8.not_lt.mp low⟩
    dsimp only
    omega

def MovesOn {Value : Type} (read : Nat → Decoded (Value × Nat)) : Prop :=
  ∀ offset value next, read offset = .ok (value, next) → offset < next

theorem movesOn_of_safely {Value : Type} {read : Nat → Decoded (Value × Nat)}
    {post : Nat → Value × Nat → Prop} (safe : ∀ offset, Safely (post offset) (read offset))
    (moves : ∀ offset value next, post offset (value, next) → offset < next) :
    MovesOn read := by
  intro offset value next result
  have known := safe offset
  rw [result] at known
  exact moves offset value next known

theorem movesOn_readMqttString : MovesOn (readMqttString payload) :=
  movesOn_of_safely (safely_readMqttString payload) fun offset text next read => by
    have moved : next = offset + 2 + (textBytes text).length := read.1
    omega

theorem movesOn_readSubscribeFilter :
    MovesOn (readSubscribeFilter payload) :=
  movesOn_of_safely (safely_readSubscribeFilter payload) fun offset filter next read => by
    have moved : next = offset + 3 + (textBytes filter.topic).length := read.1
    omega

/-- The loops of `decode_subscribe` and `decode_unsubscribe`: read until the end of the
payload. -/
def readAll {Value : Type} (payload : List UInt8) (read : Nat → Decoded (Value × Nat))
    (moves : MovesOn read) (offset : Nat) (values : List Value) : Decoded (List Value) :=
  if offset < payload.length then
    match _read : read offset with
    | .error fault => .error fault
    | .ok (value, next) => readAll payload read moves next (values ++ [value])
  else
    return values
termination_by payload.length - offset
decreasing_by
  have := moves offset value next _read
  omega

/-- `decode_subscribe` and `decode_unsubscribe`: a packet identifier and at least one
filter. -/
def decodeFilters {Value : Type} (name : String) (payload : List UInt8)
    (read : Nat → Decoded (Value × Nat)) (moves : MovesOn read) :
    Decoded (UInt16 × List Value) :=
  if payload.length < 2 then
    malformed name
  else do
    let (packetId, offset) ← readU16 payload 0
    let filters ← readAll payload read moves offset []
    if filters.isEmpty then
      malformed (name ++ " has no filters")
    else
      return (packetId, filters)

def decodeSubscribe (payload : List UInt8) : Decoded Subscribe :=
  (fun body => ⟨body.1, body.2⟩) <$>
    decodeFilters "SUBSCRIBE" payload (readSubscribeFilter payload)
      (movesOn_readSubscribeFilter payload)

def decodeUnsubscribe (payload : List UInt8) : Decoded Unsubscribe :=
  (fun body => ⟨body.1, body.2⟩) <$>
    decodeFilters "UNSUBSCRIBE" payload (readMqttString payload) (movesOn_readMqttString payload)

def decodeEmpty (packet : Packet) (name : String) (payload : List UInt8) : Decoded Packet :=
  if payload.isEmpty then return packet else malformed name

def decodePayload (packetType flags : UInt8) (payload : List UInt8) : Decoded Packet :=
  match packetType with
  | 1 =>
    if flags ≠ 0 then malformed "CONNECT flags" else .connect <$> decodeConnect payload
  | 2 =>
    if payload.length ≠ 2 then
      malformed "CONNACK length"
    else do
      let acknowledge ← byteAt payload 0
      let code ← byteAt payload 1
      return .connAck ⟨acknowledge &&& 0x01 ≠ 0, code⟩
  | 3 => .publish <$> decodePublish flags payload
  | 4 => .pubAck <$> requirePacketId payload
  | 5 => .pubRec <$> requirePacketId payload
  | 6 =>
    if flags ≠ 0x02 then malformed "PUBREL flags" else .pubRel <$> requirePacketId payload
  | 7 => .pubComp <$> requirePacketId payload
  | 8 =>
    if flags ≠ 0x02 then
      malformed "SUBSCRIBE flags"
    else
      .subscribe <$> decodeSubscribe payload
  | 9 =>
    if payload.length < 2 then
      malformed "SUBACK"
    else do
      let high ← byteAt payload 0
      let low ← byteAt payload 1
      let codes ← slice payload 2 payload.length
      return .subAck ⟨fromBeBytes high low, codes⟩
  | 10 =>
    if flags ≠ 0x02 then
      malformed "UNSUBSCRIBE flags"
    else
      .unsubscribe <$> decodeUnsubscribe payload
  | 11 => .unsubAck <$> requirePacketId payload
  | 12 => decodeEmpty .pingReq "PINGREQ" payload
  | 13 => decodeEmpty .pingResp "PINGRESP" payload
  | 14 => decodeEmpty .disconnect "DISCONNECT" payload
  | _ => malformed "unknown packet type"

/-! ## Decoding from a buffer -/

/-- The loop of `decode_remaining_length`, at the byte with the index. -/
def remainingLength (index value multiplier : Nat) :
    List UInt8 → Decoded (Option (Nat × Nat))
  | [] => return none
  | byte :: later =>
    if 4 ≤ index then
      malformed "remaining length"
    else
      let value := value + (byte &&& 0x7f).toNat * multiplier
      if byte &&& 0x80 = 0 then
        return some (value, index + 1 + 1)
      else if multiplier * 128 < 2 ^ 64 then
        remainingLength (index + 1) value (multiplier * 128) later
      else
        malformed "remaining length"

def decodeRemainingLength (buf : List UInt8) : Decoded (Option (Nat × Nat)) :=
  remainingLength 0 0 1 buf

/-- `decode_one`: what it returns, and the buffer after it. -/
def decodeOne (buf : List UInt8) : Decoded (Option Packet) × List UInt8 :=
  if buf.isEmpty then
    (.ok none, buf)
  else
    match byteAt buf 0, slice buf 1 buf.length with
    | .error fault, _ | _, .error fault => (.error fault, buf)
    | .ok first, .ok behind =>
      match decodeRemainingLength behind with
      | .error fault => (.error fault, buf)
      | .ok none => (.ok none, buf)
      | .ok (some (remaining, headerLen)) =>
        if maxPacketSize < remaining then
          (.error (.rejected .tooLarge), buf)
        else
          let total := headerLen + remaining
          if buf.length < total then
            (.ok none, buf)
          else
            match slice buf headerLen total with
            | .error fault => (.error fault, buf)
            | .ok payload =>
              (some <$> decodePayload (first >>> 4) (first &&& 0x0f) payload, buf.drop total)

end Mqtt
end CanglingBroker
