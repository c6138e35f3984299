import CanglingBroker.Delivery.Calls
import CanglingBroker.Mqtt.Stream

/-!
# The first packet of a session

`run_session` waits for a CONNECT from its read loop and answers it with a CONNACK.  The
level of the protocol is judged twice: by `decode_connect`, which reads the pair of name
and level, and by `run_session` on the level of the packet it is given.
-/

namespace CanglingBroker
namespace Mqtt

open Foundation
open Delivery (trimmed)

def connackAccept : UInt8 := 0
def connackProtocol : UInt8 := 1
def connackIdentifier : UInt8 := 2
def connackBadAuth : UInt8 := 4
def connackNotAuthorized : UInt8 := 5

/-- What `run_session` is told before the session begins: whether the first packet came
within its time, a new identifier, what `mqtt_authorized` answers, and whether the last
CONNACK could be sent. -/
structure Entrance where
  inTime : Bool
  newUuid : String
  authorized : Connect → String → Bool
  sends : Bool

/-- `run_session` up to the CONNACK that accepts: what it sends, and the client's
identifier or the text of the error it leaves with. -/
def handshake (entrance : Entrance) (first : Option Packet) : List Packet × Except String String :=
  if !entrance.inTime then
    ([], .error "mqtt CONNECT timeout")
  else
    match first with
    | none => ([], .error "mqtt connection closed before CONNECT")
    | some (.connect connect) =>
      let refuse (code : UInt8) (reason : String) : List Packet × Except String String :=
        ([.connAck ⟨false, code⟩], .error reason)
      let enter (clientId : String) : List Packet × Except String String :=
        if !entrance.authorized connect clientId then
          refuse
            (if connect.username.isNone && connect.password.isNone then connackNotAuthorized
              else connackBadAuth)
            ("mqtt auth failed for " ++ clientId)
        else
          ([.connAck ⟨false, connackAccept⟩],
            if entrance.sends then .ok clientId else .error "send")
      if connect.protocolLevel ≠ 3 ∧ connect.protocolLevel ≠ 4 then
        refuse connackProtocol
          ("unsupported mqtt protocol level " ++ toString connect.protocolLevel.toNat)
      else if (trimmed connect.clientId).isEmpty then
        if !connect.cleanSession then
          refuse connackIdentifier "empty client id requires clean session"
        else
          enter ("mqtt-" ++ entrance.newUuid)
      else
        enter (trimmed connect.clientId)
    | some _ => ([], .error "first mqtt packet was not CONNECT")

/-- A session on what arrives, from the read loop to its first CONNACK. -/
def greet {Arrival : Type} (chunk : Arrival → Option (List UInt8)) (alive : Nat → Bool)
    (entrance : Entrance) (arrivals : List Arrival) : List Packet × Except String String :=
  handshake entrance (readLoop chunk alive 0 [] arrivals).1.head?

/-- The stream begins with a CONNECT that has the name and the level, and that would be
decoded with a pair that is supported. -/
def BeginsWithConnect (name : String) (level : UInt8) (stream : List UInt8) : Prop :=
  ∃ header rest later connect,
    stream = 0x10 :: (header ++ (mqttString name ++ level :: rest ++ later)) ∧
      decodeRemainingLength header =
        .ok (some ((mqttString name ++ level :: rest).length, header.length + 1)) ∧
      decodeConnect (mqttString "MQTT" ++ 4 :: rest) = .ok connect

section Unsupported

variable {name : String} {level : UInt8} {rest : List UInt8}

theorem decodeConnect_unsupported (known : name = "MQTT" ∨ name = "MQIsdp")
    (low : level ≠ 3) (high : level ≠ 4) :
    decodeConnect (mqttString name ++ level :: rest) = malformed "unsupported protocol" := by
  have short : (textBytes name).length ≤ 65535 := by
    rcases known with rfl | rfl <;> decide +kernel
  have atName := At.start (rfl : mqttString name ++ level :: rest = _)
  have unsupported : ¬ (name = "MQTT" ∧ level = 4 ∨ name = "MQIsdp" ∧ level = 3) := by
    rintro (⟨_, same⟩ | ⟨_, same⟩)
    · exact high same
    · exact low same
  unfold decodeConnect
  rw [readMqttString_at short atName, reading_ok_bind]
  dsimp only
  rw [readU8_at atName.skip, reading_ok_bind]
  exact if_pos unsupported

/-- `decode_one` refuses the packet, be it for its size or for its level. -/
theorem decodeOne_unsupported {stream : List UInt8} (known : name = "MQTT" ∨ name = "MQIsdp")
    (low : level ≠ 3) (high : level ≠ 4) (begins : BeginsWithConnect name level stream) :
    ∃ fault, (decodeOne stream).1 = .error fault := by
  obtain ⟨header, rest, later, _, rfl, length, _⟩ := begins
  have longer :
      decodeRemainingLength (header ++ (mqttString name ++ level :: rest ++ later)) =
        decodeRemainingLength header :=
    remainingLength_append (by rw [← decodeRemainingLength, length]; nofun) _
  rw [decodeOne_cons, longer, length]
  dsimp only
  split
  · exact ⟨_, rfl⟩
  · have complete : ¬ (0x10 :: (header ++ (mqttString name ++ level :: rest ++ later))).length <
        header.length + 1 + (mqttString name ++ level :: rest).length := by
      simp only [List.length_cons, List.length_append]
      omega
    rw [if_neg complete, List.drop_succ_cons, List.drop_left, List.take_left]
    change ∃ fault, (some <$> (Packet.connect <$> decodeConnect _) : Decoded _) = .error fault
    rw [decodeConnect_unsupported known low high]
    exact ⟨_, rfl⟩

/-- The read loop ends without a packet, so the session hears nothing and says nothing. -/
theorem greet_unsupported {Arrival : Type} {chunk : Arrival → Option (List UInt8)}
    {arrivals : List Arrival} (known : name = "MQTT" ∨ name = "MQIsdp")
    (low : level ≠ 3) (high : level ≠ 4)
    (begins : BeginsWithConnect name level (received chunk arrivals)) (alive : Nat → Bool)
    (entrance : Entrance) :
    ∃ reason, greet chunk alive entrance arrivals = ([], .error reason) := by
  obtain ⟨fault, failed⟩ := decodeOne_unsupported known low high begins
  rw [greet, readLoop_eq, List.nil_append, drain_fails failed]
  cases timely : entrance.inTime with
  | false => exact ⟨_, if_pos (by rw [timely]; rfl)⟩
  | true => exact ⟨_, if_neg (by rw [timely]; decide)⟩

end Unsupported

/-- A CONNECT with a level other than 3 and 4 would have to be answered before the session
ends; no such CONNECT is. -/
theorem unsupported_level_answered_iff {Arrival : Type} (chunk : Arrival → Option (List UInt8))
    (alive : Nat → Bool) (entrance : Entrance) (arrivals : List Arrival) (name : String)
    (level : UInt8) (known : name = "MQTT" ∨ name = "MQIsdp")
    (begins : BeginsWithConnect name level (received chunk arrivals)) :
    (level ≠ 3 ∧ level ≠ 4 →
        .connAck ⟨false, connackProtocol⟩ ∈ (greet chunk alive entrance arrivals).1 ∧
          ∃ reason, (greet chunk alive entrance arrivals).2 = .error reason) ↔
      level = 3 ∨ level = 4 := by
  constructor
  · intro answered
    by_contra neither
    obtain ⟨low, high⟩ := not_or.mp neither
    obtain ⟨_, silent⟩ := greet_unsupported known low high begins alive entrance
    have sent := (answered ⟨low, high⟩).1
    rw [silent] at sent
    cases sent
  · rintro (same | same) ⟨low, high⟩
    · exact absurd same low
    · exact absurd same high

/-- A client that opens with the level 5 of the protocol. -/
def fifthConnect : List UInt8 :=
  0x10 :: ([13] ++ (mqttString "MQTT" ++ 5 :: [2, 0, 60, 0, 1, 99] ++ []))

theorem fifthConnect_begins : BeginsWithConnect "MQTT" 5 (received tcpChunk [fifthConnect]) := by
  have good : (⟨4, true, 60, "c", none, none⟩ : Connect).WellFormed :=
    ⟨.inr rfl, by decide +kernel, fun _ absent => (nomatch absent),
      fun _ absent => (nomatch absent)⟩
  have decoded := decodeConnect_body good
  have body : connectBody ⟨4, true, 60, "c", none, none⟩ =
      mqttString "MQTT" ++ 4 :: [2, 0, 60, 0, 1, 99] := by
    decide +kernel
  rw [body] at decoded
  exact ⟨[13], _, [], _, received_tcp_single fifthConnect, by decide +kernel, decoded⟩

theorem unsupported_level_answered_iff_fifth :
    ¬ ((5 : UInt8) ≠ 3 ∧ (5 : UInt8) ≠ 4 →
      .connAck ⟨false, connackProtocol⟩ ∈
          (greet tcpChunk (fun _ => true) ⟨true, "u1", fun _ _ => true, true⟩ [fifthConnect]).1 ∧
        ∃ reason, (greet tcpChunk (fun _ => true) ⟨true, "u1", fun _ _ => true, true⟩
          [fifthConnect]).2 = .error reason) := by
  rw [unsupported_level_answered_iff tcpChunk _ _ [fifthConnect] "MQTT" 5 (.inl rfl)
    fifthConnect_begins]
  decide

/-- The client is sent nothing, neither the CONNACK for the protocol nor any other packet. -/
theorem fifthConnect_unanswered :
    BeginsWithConnect "MQTT" 5 (received tcpChunk [fifthConnect]) ∧
      ∃ reason, greet tcpChunk (fun _ => true) ⟨true, "u1", fun _ _ => true, true⟩ [fifthConnect] =
        ([], .error reason) :=
  ⟨fifthConnect_begins,
    greet_unsupported (.inl rfl) (by decide) (by decide) fifthConnect_begins _ _⟩

end Mqtt
end CanglingBroker
