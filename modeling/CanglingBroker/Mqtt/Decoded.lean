import CanglingBroker.Mqtt.RoundTrip

/-!
# What is decoded can be written

Every packet that the decoder returns is one the encoder can write, into no more bytes
than it was read from, and no read on the way lies outside the buffer.
-/

namespace CanglingBroker
namespace Mqtt

open Foundation

/-! ## Bodies -/

section Decoded

variable {data : List UInt8} {offset : Nat} (payload : List UInt8)

/-- What was read from the offset up to the next could be written there. -/
def ReadBack {Value : Type} (data : List UInt8) (offset : Nat)
    (write : Value → List UInt8) (good : Value → Prop) (read : Value × Nat) : Prop :=
  read.2 = offset + (write read.1).length ∧ read.2 ≤ data.length ∧ good read.1

theorem readBack_mqttBytes (data : List UInt8) (offset : Nat) :
    Safely (ReadBack data offset mqttBytes fun bytes => bytes.length ≤ 65535)
      (readMqttBytes data offset) := by
  refine (safely_readMqttBytes data offset).mono ?_
  rintro ⟨bytes, next⟩ ⟨moved, inside, short⟩
  refine ⟨?_, inside, short⟩
  rw [moved, length_mqttBytes short, Nat.add_assoc]

theorem readBack_mqttString (data : List UInt8) (offset : Nat) :
    Safely (ReadBack data offset mqttString fun text => (textBytes text).length ≤ 65535)
      (readMqttString data offset) := by
  refine (safely_readMqttString data offset).mono ?_
  rintro ⟨text, next⟩ ⟨moved, inside, short⟩
  refine ⟨?_, inside, short⟩
  rw [moved, mqttString, length_mqttBytes short, Nat.add_assoc]

theorem readBack_u16 (data : List UInt8) (offset : Nat) :
    Safely (ReadBack data offset beBytes fun _ => True) (readU16 data offset) :=
  (safely_readU16 data offset).mono fun _ read => ⟨read.1, read.2, trivial⟩

theorem readBack_readIf {Value : Type} {write : Value → List UInt8} {good : Value → Prop}
    {flag : Bool} {read : Decoded (Value × Nat)} (inside : offset ≤ data.length)
    (safe : Safely (ReadBack data offset write good) read) :
    Safely
      (fun result => result.1.isSome = flag ∧
        ReadBack data offset (fun value => value.elim [] write)
          (fun value => ∀ written, value = some written → good written) result)
      (readIf flag offset read) := by
  unfold readIf
  split
  · next set =>
    refine safely_bind safe ?_
    rintro ⟨value, next⟩ ⟨moved, within, fine⟩
    refine ⟨set.symm, moved, within, ?_⟩
    rintro written same
    exact Option.some.inj same ▸ fine
  · next unset => exact ⟨(Bool.eq_false_iff.mpr unset).symm, rfl, inside, nofun⟩

theorem safely_decodeConnect : Safely
    (fun connect => connect.WellFormed ∧ (connectBody connect).length ≤ payload.length)
    (decodeConnect payload) := by
  unfold decodeConnect
  refine safely_bind (readBack_mqttString payload 0) ?_
  rintro ⟨protocol, afterProtocol⟩ ⟨movedProtocol, _, _⟩
  refine safely_bind (safely_readU8 payload _) ?_
  rintro ⟨level, afterLevel⟩ ⟨movedLevel, _⟩
  dsimp only at movedProtocol movedLevel ⊢
  split
  · exact safely_malformed _
  · next supported =>
    refine safely_bind (safely_readU8 payload _) ?_
    rintro ⟨flags, afterFlags⟩ ⟨movedFlags, _⟩
    dsimp only at movedFlags ⊢
    split
    · exact safely_malformed _
    · refine safely_bind (safely_readU16 payload _) ?_
      rintro ⟨keepAlive, afterKeepAlive⟩ ⟨movedKeepAlive, _⟩
      refine safely_bind (readBack_mqttString payload _) ?_
      rintro ⟨clientId, afterClientId⟩ ⟨movedClientId, insideClientId, shortClientId⟩
      refine safely_bind (readBack_readIf insideClientId (readBack_mqttString payload _)) ?_
      rintro ⟨willTopic, afterWillTopic⟩ ⟨_, movedWillTopic, insideWillTopic, _⟩
      refine safely_bind (readBack_readIf insideWillTopic (readBack_mqttBytes payload _)) ?_
      rintro ⟨willPayload, afterWill⟩ ⟨_, movedWill, insideWill, _⟩
      refine safely_bind (readBack_readIf insideWill (readBack_mqttString payload _)) ?_
      rintro ⟨username, afterUsername⟩ ⟨_, movedUsername, insideUsername, shortUsername⟩
      refine safely_bind (readBack_readIf insideUsername (readBack_mqttBytes payload _)) ?_
      rintro ⟨password, afterPassword⟩ ⟨_, movedPassword, insidePassword, shortPassword⟩
      have named : protocolName level = protocol ∧ (level = 3 ∨ level = 4) := by
        rcases not_not.mp supported with ⟨rfl, rfl⟩ | ⟨rfl, rfl⟩
        · exact ⟨rfl, .inr rfl⟩
        · exact ⟨rfl, .inl rfl⟩
      refine safely_ok ⟨⟨named.2, shortClientId, shortUsername, shortPassword⟩, ?_⟩
      rw [connectBody_eq ⟨named.2, shortClientId, shortUsername, shortPassword⟩]
      simp only [named.1, List.length_append, List.length_cons, length_beBytes, List.length_nil]
      dsimp only at *
      omega

theorem safely_decodePublish (flags : UInt8) (payload : List UInt8) : Safely
    (fun publish => publish.WellFormed ∧ (publishBody publish).length ≤ payload.length)
    (decodePublish flags payload) := by
  unfold decodePublish
  dsimp only
  split
  · exact safely_malformed _
  · next low =>
    refine safely_bind (readBack_mqttString payload 0) ?_
    rintro ⟨topic, afterTopic⟩ ⟨movedTopic, insideTopic, shortTopic⟩
    refine safely_bind (readBack_readIf insideTopic (readBack_u16 payload _)) ?_
    rintro ⟨packetId, afterPacketId⟩ ⟨identified, movedPacketId, insidePacketId, _⟩
    refine safely_bind (safely_slice insidePacketId (Nat.le_refl _)) ?_
    intro content taken
    have good : Publish.WellFormed
        ⟨flags &&& 0x08 ≠ 0, (flags >>> 1) &&& 0x03, flags &&& 0x01 ≠ 0, topic, packetId,
          content⟩ :=
      ⟨UInt8.not_lt.mp low, shortTopic, by rw [identified, decide_eq_true_iff]⟩
    refine safely_ok ⟨good, ?_⟩
    rw [publishBody_eq good]
    simp only [List.length_append]
    dsimp only at *
    omega

/-- Values read up to the end of the payload could be written there. -/
theorem safely_readAll {Value : Type} {read : Nat → Decoded (Value × Nat)}
    {write : Value → List UInt8} {good : Value → Prop} (moves : MovesOn read)
    (safe : ∀ offset, Safely (ReadBack data offset write good) (read offset))
    (inside : offset ≤ data.length) (earlier : List Value) :
    Safely
      (fun result => ∃ later, result = earlier ++ later ∧ (∀ value ∈ later, good value) ∧
        offset + (later.flatMap write).length ≤ data.length)
      (readAll data read moves offset earlier) := by
  fun_induction readAll data read moves offset earlier with
  | case1 offset earlier unfinished fault result =>
    have known := safe offset
    rwa [result] at known
  | case2 offset earlier unfinished value next result ih =>
    have known := safe offset
    rw [result] at known
    obtain ⟨moved, within, fine⟩ := known
    refine (ih within).mono ?_
    rintro values ⟨later, rfl, fineLater, written⟩
    refine ⟨value :: later, List.append_assoc _ _ _, ?_, ?_⟩
    · intro other member
      rcases List.mem_cons.mp member with rfl | member
      · exact fine
      · exact fineLater other member
    · rw [List.flatMap_cons, List.length_append]
      dsimp only at moved
      omega
  | case3 offset earlier finished => exact ⟨[], (List.append_nil earlier).symm, nofun, inside⟩

theorem readBack_subscribeFilter (data : List UInt8) (offset : Nat) : Safely
    (ReadBack data offset (fun filter => mqttString filter.topic ++ [min filter.qos 2])
      fun filter => (textBytes filter.topic).length ≤ 65535 ∧ filter.qos ≤ 2)
    (readSubscribeFilter data offset) := by
  refine (safely_readSubscribeFilter data offset).mono ?_
  rintro ⟨filter, next⟩ ⟨moved, inside, short, low⟩
  refine ⟨?_, inside, short, low⟩
  rw [moved, List.length_append, mqttString, length_mqttBytes short, List.length_singleton]
  omega

theorem safely_decodeFilters {Value : Type} {name : String} {read : Nat → Decoded (Value × Nat)}
    {write : Value → List UInt8} {good : Value → Prop} (moves : MovesOn read)
    (safe : ∀ offset, Safely (ReadBack payload offset write good) (read offset)) :
    Safely
      (fun body => (body.2 ≠ [] ∧ ∀ value ∈ body.2, good value) ∧
        (beBytes body.1 ++ body.2.flatMap write).length ≤ payload.length)
      (decodeFilters name payload read moves) := by
  unfold decodeFilters
  split
  · exact safely_malformed _
  · refine safely_bind (safely_readU16 payload 0) ?_
    rintro ⟨packetId, next⟩ ⟨(rfl : next = 0 + 2), inside⟩
    refine safely_bind (safely_readAll moves safe inside []) ?_
    rintro filters ⟨later, rfl, fine, written⟩
    split
    · exact safely_malformed _
    · next nonempty =>
      refine safely_ok ⟨⟨fun none => nonempty (List.isEmpty_iff.mpr none), fine⟩, ?_⟩
      rw [List.length_append, length_beBytes]
      rwa [Nat.zero_add] at written

theorem safely_decodeSubscribe :
    Safely (fun sub => sub.WellFormed ∧ (subscribeBody sub).length ≤ payload.length)
      (decodeSubscribe payload) :=
  safely_map ((safely_decodeFilters payload (movesOn_readSubscribeFilter payload)
    (readBack_subscribeFilter payload)).mono fun _ known => ⟨⟨known.1.1, known.1.2⟩, known.2⟩)

theorem safely_decodeUnsubscribe :
    Safely (fun unsub => unsub.WellFormed ∧ (unsubscribeBody unsub).length ≤ payload.length)
      (decodeUnsubscribe payload) :=
  safely_map ((safely_decodeFilters payload (movesOn_readMqttString payload)
    (readBack_mqttString payload)).mono fun _ known => ⟨⟨known.1.1, known.1.2⟩, known.2⟩)

theorem safely_requirePacketId :
    Safely (fun _ => 2 ≤ payload.length) (requirePacketId payload) := by
  unfold requirePacketId
  split
  · exact safely_malformed _
  · next exact2 =>
    have long : payload.length = 2 := not_not.mp exact2
    refine safely_bind (safely_byteAt (by omega)) fun high _ => ?_
    refine safely_bind (safely_byteAt (by omega)) fun low _ => ?_
    exact Nat.le_of_eq long.symm

/-- The packet can be written into as many bytes as it was read from. -/
def Fits (payload : List UInt8) (packet : Packet) : Prop :=
  packet.Writable ∧ packet.body.length ≤ payload.length

theorem safely_decodeEmpty (packet : Packet) (writable : packet.Writable)
    (empty : packet.body = []) (name : String) (payload : List UInt8) :
    Safely (Fits payload) (decodeEmpty packet name payload) := by
  unfold decodeEmpty
  split
  · refine safely_ok ⟨writable, ?_⟩
    rw [empty]
    exact Nat.zero_le _
  · exact safely_malformed _

theorem safely_packetId {payload : List UInt8} (make : UInt16 → Packet)
    (fits : ∀ packetId, (make packetId).Writable ∧ (make packetId).body = beBytes packetId) :
    Safely (Fits payload) (make <$> requirePacketId payload) :=
  safely_map ((safely_requirePacketId payload).mono fun packetId long =>
    ⟨(fits packetId).1, by rw [(fits packetId).2]; exact long⟩)

theorem safely_decodePayload (packetType flags : UInt8) (payload : List UInt8) :
    Safely (Fits payload) (decodePayload packetType flags payload) := by
  unfold decodePayload
  split
  · split
    · exact safely_malformed _
    · exact safely_map (safely_decodeConnect payload)
  · split
    · exact safely_malformed _
    · next exact2 =>
      have long : payload.length = 2 := not_not.mp exact2
      refine safely_bind (safely_byteAt (by omega)) fun acknowledge _ => ?_
      refine safely_bind (safely_byteAt (by omega)) fun code _ => ?_
      exact safely_ok ⟨trivial, Nat.le_of_eq long.symm⟩
  · exact safely_map (safely_decodePublish flags payload)
  · exact safely_packetId _ fun _ => ⟨trivial, rfl⟩
  · exact safely_packetId _ fun _ => ⟨trivial, rfl⟩
  · split
    · exact safely_malformed _
    · exact safely_packetId _ fun _ => ⟨trivial, rfl⟩
  · exact safely_packetId _ fun _ => ⟨trivial, rfl⟩
  · split
    · exact safely_malformed _
    · exact safely_map (safely_decodeSubscribe payload)
  · split
    · exact safely_malformed _
    · next long =>
      refine safely_bind (safely_byteAt (by omega)) fun high _ => ?_
      refine safely_bind (safely_byteAt (by omega)) fun low _ => ?_
      refine safely_bind (safely_slice (by omega) (Nat.le_refl _)) fun codes taken => ?_
      refine safely_ok ⟨trivial, ?_⟩
      rw [Packet.body, List.length_append, length_beBytes, taken]
      omega
  · split
    · exact safely_malformed _
    · exact safely_map (safely_decodeUnsubscribe payload)
  · exact safely_packetId _ fun _ => ⟨trivial, rfl⟩
  · exact safely_decodeEmpty .pingReq trivial rfl _ payload
  · exact safely_decodeEmpty .pingResp trivial rfl _ payload
  · exact safely_decodeEmpty .disconnect trivial rfl _ payload
  · exact safely_malformed _

end Decoded

/-! ## Buffers -/

theorem safely_remainingLength (index value multiplier : Nat) (buf : List UInt8) :
    Safely (fun _ => True) (remainingLength index value multiplier buf) := by
  fun_induction remainingLength index value multiplier buf with
  | case1 => exact safely_ok trivial
  | case2 => exact safely_malformed _
  | case3 => exact safely_ok trivial
  | case4 _ _ _ _ _ _ _ _ _ ih => exact ih
  | case5 => exact safely_malformed _

theorem safely_decodeRemainingLength (buf : List UInt8) :
    Safely (fun _ => True) (decodeRemainingLength buf) :=
  safely_remainingLength 0 0 1 buf

/-- `decode_one` on a buffer that is not empty: none of its accesses lies outside. -/
theorem decodeOne_cons (first : UInt8) (behind : List UInt8) : decodeOne (first :: behind) =
    match decodeRemainingLength behind with
    | .error fault => (.error fault, first :: behind)
    | .ok none => (.ok none, first :: behind)
    | .ok (some (remaining, headerLen)) =>
      if maxPacketSize < remaining then
        (.error (.rejected .tooLarge), first :: behind)
      else if (first :: behind).length < headerLen + remaining then
        (.ok none, first :: behind)
      else
        (some <$> decodePayload (first >>> 4) (first &&& 0x0f)
            (((first :: behind).drop headerLen).take remaining),
          (first :: behind).drop (headerLen + remaining)) := by
  have atFirst := At.start (rfl : first :: behind = _)
  rw [decodeOne, if_neg (by exact Bool.false_ne_true), atFirst.byteAt_eq,
    atFirst.skip_byte.slice_rest]
  dsimp only
  rcases decodeRemainingLength behind with fault | _ | ⟨remaining, headerLen⟩
  · rfl
  · rfl
  · dsimp only
    split
    · rfl
    · split
      · rfl
      · next complete =>
        have inside : headerLen + remaining ≤ (first :: behind).length := Nat.not_lt.mp complete
        unfold slice
        rw [if_pos ⟨Nat.le_add_right _ _, inside⟩, Nat.add_sub_cancel_left]

theorem safely_decodeOne (buf : List UInt8) :
    Safely (fun found => ∀ packet, found = some packet → packet.WellFormed) (decodeOne buf).1 := by
  cases buf with
  | nil => exact safely_ok nofun
  | cons _ behind =>
    rw [decodeOne_cons]
    have header := safely_decodeRemainingLength behind
    revert header
    rcases decodeRemainingLength behind with fault | _ | ⟨remaining, headerLen⟩ <;> intro header
    · exact header
    · exact safely_ok nofun
    · dsimp only
      split
      · exact safely_rejected _
      · next small =>
        split
        · exact safely_ok nofun
        · refine safely_map ((safely_decodePayload _ _ _).mono ?_)
          intro packet fits other same
          rw [← Option.some.inj same]
          refine ⟨fits.1, fits.2.trans ?_⟩
          exact (List.length_take_le _ _).trans (Nat.not_lt.mp small)

/-- A packet that can be written, or that was decoded from anything, is read back from
what is written for it, whatever follows. -/
theorem decodeOne_encode (packet : Packet) (rest : List UInt8)
    (good : packet.WellFormed ∨ ∃ buf, (decodeOne buf).1 = .ok (some packet)) :
    decodeOne (encode packet ++ rest) = (.ok (some packet), rest) := by
  rcases good with wellFormed | ⟨buf, decoded⟩
  · exact decodeOne_packet wellFormed rest
  · have safe := safely_decodeOne buf
    rw [decoded] at safe
    exact decodeOne_packet (safe packet rfl) rest

/-- A message with QoS 1 and two bytes behind it. -/
theorem decodeOne_encode_publish :
    let packet : Packet := .publish ⟨false, 1, true, "a/b", some 513, [7, 8, 9]⟩
    decodeOne (encode packet ++ [192, 0]) = (.ok (some packet), [192, 0]) :=
  decodeOne_encode (.publish ⟨false, 1, true, "a/b", some 513, [7, 8, 9]⟩) [192, 0]
    (.inl ⟨⟨by decide, by decide +kernel, by decide⟩, by decide +kernel⟩)

end Mqtt
end CanglingBroker
