import CanglingBroker.Mqtt.Codec

/-!
# What is written is read back

A read that finds in front of it what the matching writer wrote returns the value
written, and moves behind it.  From the fields this goes up to the bodies, through the
variable-length header, to whole packets followed by anything.
-/

namespace CanglingBroker
namespace Mqtt

open Foundation

theorem reading_ok_bind {Value Later : Type} (value : Value) (next : Value → Decoded Later) :
    ((.ok value : Decoded Value) >>= next) = next value :=
  rfl

/-! ## Fields -/

section Fields

variable {data rest : List UInt8} {offset : Nat}

theorem readU8_at {value : UInt8} (here : At data offset (value :: rest)) :
    readU8 data offset = .ok (value, offset + 1) := by
  obtain ⟨front, rfl, rfl⟩ := here
  rw [readU8, List.getElem?_append_right (Nat.le_refl _), Nat.sub_self]
  rfl

theorem readU16_at {value : UInt16} (here : At data offset (beBytes value ++ rest)) :
    readU16 data offset = .ok (value, offset + 2) := by
  have long := here.length_eq
  rw [List.length_append, length_beBytes] at long
  have second : At data (offset + 1) (UInt8.ofNat (value.toNat % 256) :: rest) := At.skip_byte here
  rw [readU16, if_neg (by omega), At.byteAt_eq here, second.byteAt_eq]
  exact congrArg (fun read => Except.ok (read, offset + 2)) (fromBeBytes_beBytes value)

variable {value : List UInt8} {Value : Type}

theorem mqttBytes_of_short (short : value.length ≤ 65535) :
    mqttBytes value = beBytes (UInt16.ofNat value.length) ++ value := by
  rw [mqttBytes, Nat.min_eq_left short, List.take_length]

theorem length_mqttBytes (short : value.length ≤ 65535) :
    (mqttBytes value).length = 2 + value.length := by
  rw [mqttBytes_of_short short, List.length_append, length_beBytes]

theorem readMqttBytes_at (short : value.length ≤ 65535)
    (here : At data offset (mqttBytes value ++ rest)) :
    readMqttBytes data offset = .ok (value, offset + (mqttBytes value).length) := by
  rw [length_mqttBytes short, ← Nat.add_assoc]
  rw [mqttBytes_of_short short, List.append_assoc] at here
  have content : At data (offset + 2) (value ++ rest) := here.skip
  have long := content.length_eq
  rw [List.length_append] at long
  have len : (UInt16.ofNat value.length).toNat = value.length :=
    UInt16.toNat_ofNat_of_lt' (Nat.lt_succ_of_le short)
  unfold readMqttBytes
  rw [readU16_at here]
  change (if data.length < offset + 2 + (UInt16.ofNat value.length).toNat then _ else _) = _
  rw [len, if_neg (by omega), content.slice_eq]
  rfl

theorem readMqttString_at {value : String} (short : (textBytes value).length ≤ 65535)
    (here : At data offset (mqttString value ++ rest)) :
    readMqttString data offset = .ok (value, offset + (mqttString value).length) := by
  unfold readMqttString
  rw [readMqttBytes_at short here]
  dsimp only [bind, Except.bind]
  rw [fromUtf8_textBytes]
  rfl

theorem readIf_false (read : Decoded (Value × Nat)) :
    readIf false offset read = .ok (none, offset) :=
  rfl

theorem readIf_at {flag : Bool} {value : Option Value} {read : Decoded (Value × Nat)}
    {write : Value → List UInt8} (flagged : flag = value.isSome)
    (reads : ∀ written, value = some written →
      read = .ok (written, offset + (write written).length)) :
    readIf flag offset read = .ok (value, offset + (value.elim [] write).length) := by
  cases value with
  | none =>
    rw [flagged]
    rfl
  | some written =>
    rw [flagged, reads written rfl]
    rfl

theorem readAll_at {read : Nat → Decoded (Value × Nat)} {write : Value → List UInt8}
    (moves : MovesOn read) {values : List Value}
    (reads : ∀ value ∈ values, ∀ offset rest, At data offset (write value ++ rest) →
      read offset = .ok (value, offset + (write value).length))
    (here : At data offset (values.flatMap write)) (earlier : List Value) :
    readAll data read moves offset earlier = .ok (earlier ++ values) := by
  induction values generalizing offset earlier with
  | nil =>
    have ended : data.length = offset := here.length_eq
    rw [readAll, if_neg (by omega), List.append_nil]
    rfl
  | cons value _ ih =>
    rw [List.flatMap_cons] at here
    have result := reads value (.head _) offset _ here
    have moved := moves offset value _ result
    have long := here.length_eq
    rw [List.length_append] at long
    rw [readAll, if_pos (by omega)]
    split
    · next failed => cases result.symm.trans failed
    · next found next read =>
      obtain ⟨rfl, rfl⟩ := Prod.mk.inj (Except.ok.inj (read.symm.trans result))
      rw [ih
        (fun other member => reads other (.tail _ member)) here.skip,
        List.append_assoc]
      rfl

end Fields

/-! ## Packets that can be written -/

/-- The texts and byte strings fit, and the protocol is one of the two. -/
structure Connect.WellFormed (connect : Connect) : Prop where
  level : connect.protocolLevel = 3 ∨ connect.protocolLevel = 4
  clientId : (textBytes connect.clientId).length ≤ 65535
  username : ∀ username, connect.username = some username → (textBytes username).length ≤ 65535
  password : ∀ password, connect.password = some password → password.length ≤ 65535

/-- The topic fits, and there is a packet id exactly above QoS 0. -/
structure Publish.WellFormed (publish : Publish) : Prop where
  qos : publish.qos ≤ 2
  topic : (textBytes publish.topic).length ≤ 65535
  packetId : publish.packetId.isSome = true ↔ 0 < publish.qos

/-- There are filters, and each fits. -/
structure Subscribe.WellFormed (sub : Subscribe) : Prop where
  nonempty : sub.filters ≠ []
  filters : ∀ filter ∈ sub.filters, (textBytes filter.topic).length ≤ 65535 ∧ filter.qos ≤ 2

/-- There are filters, and each fits. -/
structure Unsubscribe.WellFormed (unsub : Unsubscribe) : Prop where
  nonempty : unsub.filters ≠ []
  filters : ∀ filter ∈ unsub.filters, (textBytes filter).length ≤ 65535

/-- The fields of the packet can be written. -/
def Packet.Writable : Packet → Prop
  | .connect request => request.WellFormed
  | .publish message => message.WellFormed
  | .subscribe sub => sub.WellFormed
  | .unsubscribe unsub => unsub.WellFormed
  | _ => True

/-- The packet can be written, and its body is not too large. -/
def Packet.WellFormed (packet : Packet) : Prop :=
  packet.Writable ∧ packet.body.length ≤ maxPacketSize

/-! ## Bodies -/

theorem connectFlags_read (connect : Connect) :
    connectFlags connect &&& 0x01 = 0 ∧ connectFlags connect &&& 0x04 = 0 ∧
      decide (connectFlags connect &&& 0x80 ≠ 0) = connect.username.isSome ∧
      decide (connectFlags connect &&& 0x40 ≠ 0) = connect.password.isSome ∧
      decide (connectFlags connect &&& 0x02 ≠ 0) = connect.cleanSession := by
  unfold connectFlags
  cases connect.cleanSession <;> cases connect.username.isSome <;>
    cases connect.password.isSome <;> decide

/-- The protocol name `encode_connect` writes. -/
def protocolName (level : UInt8) : String :=
  if level = 3 then "MQIsdp" else "MQTT"

theorem connectBody_eq {connect : Connect} (good : connect.WellFormed) : connectBody connect =
    mqttString (protocolName connect.protocolLevel) ++
      (connect.protocolLevel :: connectFlags connect ::
        (beBytes connect.keepAlive ++ (mqttString connect.clientId ++
          (connect.username.elim [] mqttString ++
            (connect.password.elim [] mqttBytes ++ []))))) := by
  unfold connectBody protocolName
  rcases good.level with level | level <;> rw [level] <;>
    simp only [List.append_assoc, List.cons_append, List.nil_append, List.append_nil,
      if_true, if_neg (by decide : ¬ (4 : UInt8) = 3)]

theorem decodeConnect_body {connect : Connect} (good : connect.WellFormed) :
    decodeConnect (connectBody connect) = .ok connect := by
  obtain ⟨reserved, will, username, password, clean⟩ := connectFlags_read connect
  have named : (textBytes (protocolName connect.protocolLevel)).length ≤ 65535 := by
    unfold protocolName
    split <;> decide +kernel
  have known : protocolName connect.protocolLevel = "MQTT" ∧ connect.protocolLevel = 4 ∨
      protocolName connect.protocolLevel = "MQIsdp" ∧ connect.protocolLevel = 3 := by
    rcases good.level with level | level <;> rw [level] <;> decide
  obtain ⟨data, whole⟩ : ∃ data, data = connectBody connect := ⟨_, rfl⟩
  have atName := At.start (whole.trans (connectBody_eq good))
  have atLevel := atName.skip
  have atFlags := atLevel.skip_byte
  have atKeepAlive := atFlags.skip_byte
  have atClientId := atKeepAlive.skip
  rw [length_beBytes] at atClientId
  have atUsername := atClientId.skip
  have atPassword := atUsername.skip
  have readsUsername : readIf _ _ (readMqttString data _) =
      .ok (connect.username, _ + (connect.username.elim [] mqttString).length) :=
    readIf_at username fun written present =>
      readMqttString_at (good.username written present) (by rwa [present] at atUsername)
  have readsPassword : readIf _ _ (readMqttBytes data _) =
      .ok (connect.password, _ + (connect.password.elim [] mqttBytes).length) :=
    readIf_at password fun written present =>
      readMqttBytes_at (good.password written present) (by rwa [present] at atPassword)
  rw [← whole]
  unfold decodeConnect
  simp only [readMqttString_at named atName, readU8_at atLevel, readU8_at atFlags,
    readU16_at atKeepAlive, readMqttString_at good.clientId atClientId, reading_ok_bind,
    readIf_false, readsUsername, readsPassword, known, reserved, will, clean,
    not_true_eq_false, if_false, ne_eq, decide_false]
  rfl

theorem qos_cases {qos : UInt8} (low : qos ≤ 2) : qos = 0 ∨ qos = 1 ∨ qos = 2 := by
  have small : qos.toNat ≤ 2 := low
  rcases (by omega : qos.toNat = 0 ∨ qos.toNat = 1 ∨ qos.toNat = 2) with level | level | level
  · exact .inl (UInt8.toNat_inj.mp level)
  · exact .inr (.inl (UInt8.toNat_inj.mp level))
  · exact .inr (.inr (UInt8.toNat_inj.mp level))

theorem min_qos {qos : UInt8} (low : qos ≤ 2) : min qos 2 = qos := by
  rcases qos_cases low with rfl | rfl | rfl <;> decide

variable {publish : Publish} {len : Nat}

theorem publishFlags_read (good : publish.WellFormed) :
    (publishFlags publish >>> 1) &&& 0x03 = publish.qos ∧
      decide (publishFlags publish &&& 0x08 ≠ 0) = publish.dup ∧
      decide (publishFlags publish &&& 0x01 ≠ 0) = publish.retain := by
  unfold publishFlags
  rcases qos_cases good.qos with qos | qos | qos <;> rw [qos] <;>
    cases publish.dup <;> cases publish.retain <;> decide

theorem publishBody_eq (good : publish.WellFormed) : publishBody publish =
    mqttString publish.topic ++ (publish.packetId.elim [] beBytes ++ publish.payload) := by
  unfold publishBody
  rw [min_qos good.qos, List.append_assoc]
  cases written : publish.packetId with
  | none =>
    have unacknowledged : ¬ 0 < publish.qos := by
      rw [← good.packetId, written]
      exact Bool.false_ne_true
    rw [if_neg unacknowledged]
    rfl
  | some packetId =>
    rw [if_pos (good.packetId.mp (by rw [written]; rfl))]
    rfl

theorem decodePublish_body (good : publish.WellFormed) :
    decodePublish (publishFlags publish) (publishBody publish) = .ok publish := by
  obtain ⟨qos, dup, retain⟩ := publishFlags_read good
  obtain ⟨data, whole⟩ : ∃ data, data = publishBody publish := ⟨_, rfl⟩
  have atTopic := At.start (whole.trans (publishBody_eq good))
  have atPacketId := atTopic.skip
  have atPayload := atPacketId.skip
  have identified : decide (0 < publish.qos) = publish.packetId.isSome := by
    rw [Bool.eq_iff_iff, decide_eq_true_iff, good.packetId]
  have readsPacketId : readIf _ _ (readU16 data _) =
      .ok (publish.packetId, _ + (publish.packetId.elim [] beBytes).length) :=
    readIf_at identified fun written present =>
      readU16_at (by rwa [present] at atPacketId)
  rw [← whole]
  unfold decodePublish
  simp only [qos, if_neg (UInt8.not_lt.mpr good.qos), readMqttString_at good.topic atTopic,
    reading_ok_bind, readsPacketId, atPayload.slice_rest, dup, retain]
  rfl

theorem readSubscribeFilter_at {data rest : List UInt8} {offset : Nat} {filter : SubscribeFilter}
    (short : (textBytes filter.topic).length ≤ 65535) (low : filter.qos ≤ 2)
    (here : At data offset ((mqttString filter.topic ++ [min filter.qos 2]) ++ rest)) :
    readSubscribeFilter data offset =
      .ok (filter, offset + (mqttString filter.topic ++ [min filter.qos 2]).length) := by
  rw [min_qos low, List.append_assoc] at here
  unfold readSubscribeFilter
  simp only [readMqttString_at short here, reading_ok_bind, readU8_at here.skip,
    if_neg (UInt8.not_lt.mpr low), List.length_append, Nat.add_assoc]
  rfl

theorem decodeFilters_body {Value : Type} {name : String} {data : List UInt8} {packetId : UInt16}
    {values : List Value} {read : Nat → Decoded (Value × Nat)} {write : Value → List UInt8}
    (whole : data = beBytes packetId ++ values.flatMap write) (moves : MovesOn read)
    (reads : ∀ value ∈ values, ∀ offset rest, At data offset (write value ++ rest) →
      read offset = .ok (value, offset + (write value).length)) (nonempty : values ≠ []) :
    decodeFilters name data read moves = .ok (packetId, values) := by
  have atPacketId := At.start whole
  have long : ¬ data.length < 2 := by
    rw [whole, List.length_append, length_beBytes]
    omega
  have atValues := atPacketId.skip
  rw [length_beBytes] at atValues
  have filters : readAll data read moves (0 + 2) [] = .ok values :=
    readAll_at moves reads atValues []
  unfold decodeFilters
  simp only [if_neg long, readU16_at atPacketId, reading_ok_bind, filters, List.isEmpty_iff,
    if_neg nonempty]
  rfl

theorem decodeSubscribe_body {sub : Subscribe} (good : sub.WellFormed) :
    decodeSubscribe (subscribeBody sub) = .ok sub :=
  congrArg (Except.map _) (decodeFilters_body rfl _ (fun filter member _ _ =>
    readSubscribeFilter_at (good.filters filter member).1 (good.filters filter member).2)
    good.nonempty)

theorem decodeUnsubscribe_body {unsub : Unsubscribe} (good : unsub.WellFormed) :
    decodeUnsubscribe (unsubscribeBody unsub) = .ok unsub :=
  congrArg (Except.map _) (decodeFilters_body rfl _ (fun filter member _ _ =>
    readMqttString_at (good.filters filter member)) good.nonempty)

theorem requirePacketId_bytes (packetId : UInt16) :
    requirePacketId (beBytes packetId) = .ok packetId :=
  congrArg Except.ok (fromBeBytes_beBytes packetId)

theorem decodePayload_subAck (ack : SubAck) :
    decodePayload 9 0 (beBytes ack.packetId ++ ack.codes) = .ok (.subAck ack) := by
  have atHigh := At.start (rfl : beBytes ack.packetId ++ ack.codes = _)
  have atLow := At.skip_byte atHigh
  have atCodes := atHigh.skip
  have long : ¬ (beBytes ack.packetId ++ ack.codes).length < 2 := by
    rw [List.length_append, length_beBytes]
    omega
  rw [length_beBytes] at atCodes
  simp only [decodePayload, if_neg long, At.byteAt_eq atHigh, At.byteAt_eq atLow,
    atCodes.slice_rest, reading_ok_bind, fromBeBytes_beBytes]
  rfl

theorem decodePayload_body {packet : Packet} (good : packet.Writable) :
    decodePayload packet.header.1 packet.header.2 packet.body = .ok packet := by
  cases packet with
  | connect => exact congrArg (Except.map Packet.connect) (decodeConnect_body good)
  | connAck ack =>
    have present :
        decide ((if ack.sessionPresent then (1 : UInt8) else 0) &&& 0x01 ≠ 0) =
          ack.sessionPresent := by
      cases ack.sessionPresent <;> decide
    exact congrArg (fun found => Except.ok (Packet.connAck ⟨found, ack.code⟩)) present
  | publish => exact congrArg (Except.map Packet.publish) (decodePublish_body good)
  | pubAck packetId => exact congrArg (Except.map Packet.pubAck) (requirePacketId_bytes packetId)
  | pubRec packetId => exact congrArg (Except.map Packet.pubRec) (requirePacketId_bytes packetId)
  | pubRel packetId => exact congrArg (Except.map Packet.pubRel) (requirePacketId_bytes packetId)
  | pubComp packetId => exact congrArg (Except.map Packet.pubComp) (requirePacketId_bytes packetId)
  | subscribe => exact congrArg (Except.map Packet.subscribe) (decodeSubscribe_body good)
  | subAck ack => exact decodePayload_subAck ack
  | unsubscribe =>
    exact congrArg (Except.map Packet.unsubscribe) (decodeUnsubscribe_body good)
  | unsubAck packetId =>
    exact congrArg (Except.map Packet.unsubAck) (requirePacketId_bytes packetId)
  | pingReq => rfl
  | pingResp => rfl
  | disconnect => rfl

/-! ## The header -/

theorem lengthByte_read : ∀ digit : Fin 128,
    (UInt8.ofNat digit &&& 0x7f).toNat = digit ∧ UInt8.ofNat digit &&& 0x80 = 0 ∧
      ((UInt8.ofNat digit ||| 0x80) &&& 0x7f).toNat = digit ∧
      (UInt8.ofNat digit ||| 0x80) &&& 0x80 ≠ 0 := by
  decide +kernel

/-- The decoder adds up the digits it finds, from any position on. -/
theorem remainingLength_bytes {index : Nat} (positive : 0 < len) (value : Nat) (rest : List UInt8)
    (short : index + (remainingLengthBytes len).length ≤ 4) :
    remainingLength index value (128 ^ index) (remainingLengthBytes len ++ rest) =
      .ok (some (value + len * 128 ^ index, index + (remainingLengthBytes len).length + 1)) := by
  induction len using Nat.strongRecOn generalizing index value with
  | ind len ih =>
    obtain ⟨low, last, high, more⟩ := lengthByte_read ⟨len % 128, Nat.mod_lt len (by decide)⟩
    dsimp only at low last high more
    rw [remainingLengthBytes, if_neg (by omega)] at short ⊢
    rw [List.length_cons] at short
    rw [List.cons_append, remainingLength, if_neg (by omega)]
    by_cases single : len / 128 = 0
    · rw [if_pos single, if_pos last, low, single, remainingLengthBytes, if_pos rfl,
        Nat.mod_eq_of_lt (by omega)]
      rfl
    · have bounded : 128 ^ index * 128 < 2 ^ 64 := by
        have small : 128 ^ index ≤ 128 ^ 4 := Nat.pow_le_pow_right (by decide) (by omega)
        omega
      rw [if_neg single, if_neg more, if_pos bounded, high, ← Nat.pow_succ,
        ih (len / 128) (by omega) (by omega) _ (by omega), List.length_cons]
      have sum : len % 128 * 128 ^ index + len / 128 * 128 ^ (index + 1) = len * 128 ^ index := by
        calc
          _ = (len % 128 + len / 128 * 128) * 128 ^ index := by ring
          _ = len * 128 ^ index := by rw [Nat.mod_add_div' len 128]
      have place (later : Nat) : index + 1 + later + 1 = index + (later + 1) + 1 := by omega
      rw [Nat.add_assoc value, sum, place]

theorem length_remainingLengthBytes_le {count : Nat} (small : len < 128 ^ count) :
    (remainingLengthBytes len).length ≤ count := by
  induction count generalizing len with
  | zero =>
    have empty : len = 0 := Nat.lt_one_iff.mp small
    rw [empty, remainingLengthBytes, if_pos rfl]
    exact Nat.le_refl 0
  | succ _ ih =>
    rw [remainingLengthBytes]
    split
    · exact Nat.zero_le _
    · rw [Nat.pow_succ] at small
      exact Nat.succ_le_succ (ih (Nat.div_lt_of_lt_mul (by omega)))

theorem decodeRemainingLength_encode (small : len < 128 ^ 4) (rest : List UInt8) :
    decodeRemainingLength (encodeRemainingLength len ++ rest) =
      .ok (some (len, (encodeRemainingLength len).length + 1)) := by
  by_cases empty : len = 0
  · rw [empty]
    rfl
  · rw [encodeRemainingLength, if_neg empty]
    have read :=
      remainingLength_bytes (Nat.pos_of_ne_zero empty) 0 rest
        (by rw [Nat.zero_add]; exact length_remainingLengthBytes_le small)
    rwa [Nat.zero_add, Nat.pow_zero, Nat.mul_one, Nat.zero_add] at read

theorem header_read {packet : Packet} (good : packet.Writable) :
    ((packet.header.1 <<< 4) ||| (packet.header.2 &&& 0x0f)) >>> 4 = packet.header.1 ∧
      ((packet.header.1 <<< 4) ||| (packet.header.2 &&& 0x0f)) &&& 0x0f = packet.header.2 := by
  cases packet with
  | publish message =>
    dsimp only [Packet.header]
    unfold publishFlags
    rcases qos_cases good.qos with qos | qos | qos <;> rw [qos] <;>
      cases message.dup <;> cases message.retain <;> decide
  | _ =>
    dsimp only [Packet.header]
    decide

theorem decodeOne_wrap {packetType flags : UInt8} {payload : List UInt8}
    (small : payload.length ≤ maxPacketSize) (rest : List UInt8) :
    decodeOne (wrap packetType flags payload ++ rest) = (some <$>
        decodePayload (((packetType <<< 4) ||| (flags &&& 0x0f)) >>> 4)
          (((packetType <<< 4) ||| (flags &&& 0x0f)) &&& 0x0f) payload,
        rest) := by
  obtain ⟨first, isFirst⟩ : ∃ first, first = (packetType <<< 4) ||| (flags &&& 0x0f) := ⟨_, rfl⟩
  obtain ⟨buf, whole⟩ :
      ∃ buf, buf = first :: (encodeRemainingLength payload.length ++ (payload ++ rest)) :=
    ⟨_, rfl⟩
  have same : wrap packetType flags payload ++ rest = buf := by
    rw [whole, wrap, isFirst, List.cons_append, List.append_assoc]
  have atFirst := At.start whole
  have atLength := atFirst.skip_byte
  have atPayload := atLength.skip
  have long := atPayload.length_eq
  rw [List.length_append] at long
  have header :=
    decodeRemainingLength_encode (Nat.lt_of_le_of_lt small (by decide)) (payload ++ rest)
  have nonempty : ¬ buf.isEmpty = true := by
    rw [whole]
    exact Bool.false_ne_true
  have place : (encodeRemainingLength payload.length).length + 1 =
      0 + 1 + (encodeRemainingLength payload.length).length := by
    omega
  rw [same, decodeOne, if_neg nonempty, atFirst.byteAt_eq, atLength.slice_rest]
  simp only [header]
  rw [if_neg (Nat.not_lt.mpr small), place, if_neg (by omega), atPayload.slice_eq,
    atPayload.skip.drop_eq, isFirst]

theorem decodeOne_packet {packet : Packet} (good : packet.WellFormed) (rest : List UInt8) :
    decodeOne (encode packet ++ rest) = (.ok (some packet), rest) := by
  obtain ⟨typeRead, flagsRead⟩ := header_read good.1
  rw [encode, decodeOne_wrap good.2, typeRead, flagsRead, decodePayload_body good.1]
  rfl

end Mqtt
end CanglingBroker
