import CanglingBroker.Mqtt.Decoded

/-!
# Packets from a stream

The read loops of `mqtt/session.rs` decode from a buffer until more bytes are needed,
and then append what arrives next.  What they deliver depends on the bytes alone, not
on how these were cut: an answer of `decode_one` does not change when more bytes are
appended, and while it waits the buffer is shorter than the loops' limit.
-/

namespace CanglingBroker
namespace Mqtt

open Foundation

/-! ## One packet and more bytes -/

section Header

variable {index value multiplier : Nat} {buf : List UInt8}

theorem remainingLength_append (decided : remainingLength index value multiplier buf ≠ .ok none)
    (more : List UInt8) :
    remainingLength index value multiplier (buf ++ more) =
      remainingLength index value multiplier buf := by
  fun_induction remainingLength index value multiplier buf with
  | case1 => exact absurd rfl decided
  | case2 index value multiplier byte later long =>
    rw [List.cons_append, remainingLength, if_pos long]
  | case3 index value multiplier byte later short sum last =>
    rw [List.cons_append, remainingLength, if_neg short, if_pos last]
  | case4 index value multiplier byte later short sum continues fits ih =>
    rw [List.cons_append, remainingLength, if_neg short, if_neg continues, if_pos fits]
    exact ih decided
  | case5 index value multiplier byte later short continues large =>
    rw [List.cons_append, remainingLength, if_neg short, if_neg continues, if_neg large]

theorem length_le_of_remainingLength
    (waits : remainingLength index value multiplier buf = .ok none) (early : index ≤ 4) :
    index + buf.length ≤ 4 := by
  fun_induction remainingLength index value multiplier buf with
  | case1 => exact early
  | case2 => cases waits
  | case3 => cases waits
  | case4 index value multiplier byte later short sum continues fits ih =>
    have rest := ih waits (by omega)
    rw [List.length_cons]
    omega
  | case5 => cases waits

theorem headerLen_of_remainingLength {remaining headerLen : Nat}
    (found : remainingLength index value multiplier buf = .ok (some (remaining, headerLen))) :
    index + 2 ≤ headerLen ∧ headerLen ≤ 5 := by
  fun_induction remainingLength index value multiplier buf with
  | case1 => cases found
  | case2 => cases found
  | case3 index value multiplier byte later short sum last =>
    have place := (Prod.mk.inj (Option.some.inj (Except.ok.inj found))).2
    omega
  | case4 index value multiplier byte later short sum continues fits ih =>
    have rest := ih found
    omega
  | case5 => cases found

end Header

section One

variable {buf : List UInt8}

/-- An answer does not change when more bytes are appended. -/
theorem decodeOne_append (decided : (decodeOne buf).1 ≠ .ok none) (more : List UInt8) :
    decodeOne (buf ++ more) = ((decodeOne buf).1, (decodeOne buf).2 ++ more) := by
  cases buf with
  | nil => exact absurd rfl decided
  | cons first behind =>
    rw [decodeOne_cons] at decided
    have found : decodeRemainingLength behind ≠ .ok none := by
      intro waits
      rw [waits] at decided
      exact decided rfl
    have longer : decodeRemainingLength (behind ++ more) = decodeRemainingLength behind :=
      remainingLength_append found more
    rw [List.cons_append, decodeOne_cons, decodeOne_cons, longer]
    revert decided
    rcases decodeRemainingLength behind with fault | _ | ⟨remaining, headerLen⟩
    · exact fun _ => rfl
    · exact fun decided => absurd rfl decided
    · dsimp only
      split
      · exact fun _ => rfl
      · split
        · exact fun decided => absurd rfl decided
        · next complete =>
          intro _
          have inside : headerLen + remaining ≤ (first :: behind).length := Nat.not_lt.mp complete
          have incomplete : ¬ (first :: (behind ++ more)).length < headerLen + remaining := by
            rw [← List.cons_append, List.length_append]
            omega
          rw [if_neg incomplete, ← List.cons_append,
            List.drop_append_of_le_length (by omega),
            List.take_append_of_le_length (by rw [List.length_drop]; omega),
            List.drop_append_of_le_length inside]

/-- What `decode_one` does with a buffer: it waits, refuses the header, or takes a
packet from the front. -/
inductive Framed (buf : List UInt8) : Decoded (Option Packet) × List UInt8 → Prop where
  | waits (short : buf.length ≤ maxPacketSize + 5) : Framed buf (.ok none, buf)
  | refuses (problem : CodecError) : Framed buf (.error (.rejected problem), buf)
  | takes {taken rest : List UInt8} (nonempty : taken ≠ []) (split : buf = taken ++ rest)
      (body : Decoded Packet) : Framed buf (some <$> body, rest)

theorem framed_decodeOne (buf : List UInt8) : Framed buf (decodeOne buf) := by
  cases buf with
  | nil => exact .waits (Nat.zero_le _)
  | cons first behind =>
    rw [decodeOne_cons]
    cases header : decodeRemainingLength behind with
    | error fault =>
      have safe := safely_decodeRemainingLength behind
      rw [header] at safe
      cases fault with
      | rejected problem => exact .refuses problem
      | outOfBounds => exact absurd rfl safe
    | ok found =>
      cases found with
      | none =>
        refine .waits ?_
        have short := length_le_of_remainingLength header (Nat.zero_le 4)
        rw [List.length_cons]
        omega
      | some found =>
        obtain ⟨remaining, headerLen⟩ := found
        obtain ⟨positive, small⟩ := headerLen_of_remainingLength header
        dsimp only
        split
        · exact .refuses _
        · split
          · exact .waits (by omega)
          · next complete =>
            have inside : headerLen + remaining ≤ (first :: behind).length := Nat.not_lt.mp complete
            refine .takes ?_ (List.take_append_drop _ _).symm _
            intro none
            have length := congrArg List.length none
            rw [List.length_take, List.length_nil] at length
            omega

theorem decodeOne_waits (waits : (decodeOne buf).1 = .ok none) :
    (decodeOne buf).2 = buf ∧ buf.length ≤ maxPacketSize + 5 := by
  have framed := framed_decodeOne buf
  generalize decodeOne buf = result at framed waits ⊢
  cases framed with
  | waits short => exact ⟨rfl, short⟩
  | refuses => cases waits
  | takes _ _ body => cases body <;> cases waits

theorem decodeOne_takes {packet : Packet} (decoded : (decodeOne buf).1 = .ok (some packet)) :
    ∃ taken, taken ≠ [] ∧ buf = taken ++ (decodeOne buf).2 := by
  have framed := framed_decodeOne buf
  generalize decodeOne buf = result at framed decoded ⊢
  cases framed with
  | waits => cases decoded
  | refuses => cases decoded
  | takes nonempty split => exact ⟨_, nonempty, split⟩

theorem length_decodeOne {packet : Packet} (decoded : (decodeOne buf).1 = .ok (some packet)) :
    (decodeOne buf).2.length < buf.length := by
  obtain ⟨taken, nonempty, split⟩ := decodeOne_takes decoded
  have long := congrArg List.length split
  have positive := List.length_pos_iff.mpr nonempty
  rw [List.length_append] at long
  omega

end One

/-! ## The read loops -/

/-- How a read loop ends. -/
inductive ReadEnd where
  | closed
  | failed (fault : Fault CodecError)
  | oversized
  | hungUp
  deriving DecidableEq, Repr

/-- Decode until more bytes are needed or the loop ends; what is left is the buffer, or
how the loop ended.  `alive` says which sends to the session succeed. -/
def drain (alive : Nat → Bool) (sent : Nat) (buf : List UInt8) :
    List Packet × Except ReadEnd (List UInt8) :=
  match decoded : (decodeOne buf).1 with
  | .error fault => ([], .error (.failed fault))
  | .ok none => ([], .ok (decodeOne buf).2)
  | .ok (some packet) =>
    if alive sent then
      let rest := drain alive (sent + 1) (decodeOne buf).2
      (packet :: rest.1, rest.2)
    else
      ([], .error .hungUp)
termination_by buf.length
decreasing_by exact length_decodeOne decoded

/-- A read loop over what arrives; `chunk` is what an arrival appends to the buffer, or
nothing where the loop ends. -/
def readLoop {Arrival : Type} (chunk : Arrival → Option (List UInt8)) (alive : Nat → Bool)
    (sent : Nat) (buf : List UInt8) (arrivals : List Arrival) : List Packet × ReadEnd :=
  match drain alive sent buf with
  | (packets, .error ended) => (packets, ended)
  | (packets, .ok rest) =>
    if maxPacketSize + 5 < rest.length then
      (packets, .oversized)
    else
      match arrivals with
      | [] => (packets, .closed)
      | arrival :: later =>
        match chunk arrival with
        | none => (packets, .closed)
        | some bytes =>
          let further :=
            readLoop chunk alive (sent + packets.length) (rest ++ bytes) later
          (packets ++ further.1, further.2)
termination_by arrivals

/-- What a read from the socket appends: nothing is left to read after zero bytes. -/
def tcpChunk (bytes : List UInt8) : Option (List UInt8) :=
  if bytes.isEmpty then none else some bytes

def tcpReadLoop (alive : Nat → Bool) (reads : List (List UInt8)) : List Packet × ReadEnd :=
  readLoop tcpChunk alive 0 [] reads

inductive WsMessage where
  | binary (data : List UInt8)
  | text (text : String)
  | ping
  | pong
  | close
  deriving DecidableEq, Repr

def wsChunk : WsMessage → Option (List UInt8)
  | .binary data => some data
  | .text text => some (textBytes text)
  | .ping | .pong => some []
  | .close => none

def wsReadLoop (alive : Nat → Bool) (messages : List WsMessage) : List Packet × ReadEnd :=
  readLoop wsChunk alive 0 [] messages

/-- The bytes that arrive until the loop would end by itself. -/
def received {Arrival : Type} (chunk : Arrival → Option (List UInt8)) :
    List Arrival → List UInt8
  | [] => []
  | arrival :: later =>
    match chunk arrival with
    | none => []
    | some bytes => bytes ++ received chunk later

/-! ## Cuts do not matter -/

section Drain

variable {alive : Nat → Bool} {sent : Nat} {buf : List UInt8}

theorem drain_fails {fault : Fault CodecError} (failed : (decodeOne buf).1 = .error fault) :
    drain alive sent buf = ([], .error (.failed fault)) := by
  rw [drain]
  split
  · next other => rw [Except.error.inj (failed.symm.trans other)]
  · next other => cases failed.symm.trans other
  · next other => cases failed.symm.trans other

theorem drain_waits (waits : (decodeOne buf).1 = .ok none) :
    drain alive sent buf = ([], .ok buf) := by
  rw [drain]
  split
  · next other => cases waits.symm.trans other
  · rw [(decodeOne_waits waits).1]
  · next other => cases waits.symm.trans other

theorem drain_takes {packet : Packet} (decoded : (decodeOne buf).1 = .ok (some packet)) :
    drain alive sent buf =
      if alive sent then
        (packet :: (drain alive (sent + 1) (decodeOne buf).2).1,
          (drain alive (sent + 1) (decodeOne buf).2).2)
      else
        ([], .error .hungUp) := by
  rw [drain]
  split
  · next other => cases decoded.symm.trans other
  · next other => cases decoded.symm.trans other
  · next other =>
    cases decoded.symm.trans other
    rfl

/-- Go on with what is left of the buffer and more bytes. -/
def resume (alive : Nat → Bool) (sent : Nat) (more : List UInt8) :
    List Packet × Except ReadEnd (List UInt8) → List Packet × Except ReadEnd (List UInt8)
  | (packets, .error ended) => (packets, .error ended)
  | (packets, .ok rest) =>
    let further := drain alive (sent + packets.length) (rest ++ more)
    (packets ++ further.1, further.2)

theorem resume_cons (more : List UInt8) (packet : Packet)
    (drained : List Packet × Except ReadEnd (List UInt8)) :
    resume alive sent more (packet :: drained.1, drained.2) =
      (packet :: (resume alive (sent + 1) more drained).1,
        (resume alive (sent + 1) more drained).2) := by
  obtain ⟨packets, ended | rest⟩ := drained
  · rfl
  · have count : sent + (packet :: packets).length = sent + 1 + packets.length := by
      rw [List.length_cons]
      omega
    dsimp only [resume]
    rw [count]
    rfl

/-- Bytes that come later are decoded as if they had been there. -/
theorem drain_append (more : List UInt8) :
    drain alive sent (buf ++ more) = resume alive sent more (drain alive sent buf) := by
  induction long : buf.length using Nat.strongRecOn generalizing sent buf with
  | ind _ ih =>
    cases decoded : (decodeOne buf).1 with
    | error fault =>
      have same := decodeOne_append (by rw [decoded]; nofun) more
      have failed : (decodeOne (buf ++ more)).1 = .error fault := by rw [same, decoded]
      rw [drain_fails decoded, drain_fails failed]
      rfl
    | ok found =>
      cases found with
      | none =>
        rw [drain_waits decoded]
        rfl
      | some packet =>
        have same := decodeOne_append (by rw [decoded]; nofun) more
        have taken : (decodeOne (buf ++ more)).1 = .ok (some packet) := by
          rw [same, decoded]
        rw [drain_takes decoded, drain_takes taken, same]
        split
        · rw [ih _ (long ▸ length_decodeOne decoded) rfl, resume_cons]
        · rfl

theorem length_drain {rest : List UInt8} (waits : (drain alive sent buf).2 = .ok rest) :
    rest.length ≤ maxPacketSize + 5 := by
  fun_induction drain alive sent buf with
  | case1 => cases waits
  | case2 sent buf decoded =>
    obtain ⟨same, short⟩ := decodeOne_waits decoded
    rw [← Except.ok.inj waits, same]
    exact short
  | case3 sent buf packet decoded answered further ih => exact ih waits
  | case4 => cases waits

end Drain

def ending : List Packet × Except ReadEnd (List UInt8) → List Packet × ReadEnd
  | (packets, .error ended) => (packets, ended)
  | (packets, .ok _) => (packets, .closed)

/-- A read loop delivers what is decoded from all the bytes it receives. -/
theorem readLoop_eq {Arrival : Type} (chunk : Arrival → Option (List UInt8)) (alive : Nat → Bool)
    (sent : Nat) (buf : List UInt8) (arrivals : List Arrival) :
    readLoop chunk alive sent buf arrivals =
      ending (drain alive sent (buf ++ received chunk arrivals)) := by
  induction arrivals generalizing sent buf with
  | nil =>
    have bounded := @length_drain alive sent buf
    rw [readLoop, received, List.append_nil]
    generalize drain alive sent buf = drained at bounded ⊢
    obtain ⟨packets, ended | rest⟩ := drained
    · rfl
    · exact if_neg (Nat.not_lt.mpr (bounded rfl))
  | cons arrival later ih =>
    have bounded := @length_drain alive sent buf
    rw [readLoop, received]
    cases appended : chunk arrival with
    | none =>
      dsimp only
      rw [List.append_nil]
      generalize drain alive sent buf = drained at bounded ⊢
      obtain ⟨packets, ended | rest⟩ := drained
      · rfl
      · dsimp only
        rw [if_neg (Nat.not_lt.mpr (bounded rfl)), appended]
        rfl
    | some bytes =>
      dsimp only
      rw [drain_append]
      generalize drain alive sent buf = drained at bounded ⊢
      obtain ⟨packets, ended | rest⟩ := drained
      · rfl
      · dsimp only [resume]
        rw [if_neg (Nat.not_lt.mpr (bounded rfl)), appended]
        dsimp only
        rw [ih, List.append_assoc]
        rcases drain alive (sent + packets.length) (rest ++ (bytes ++ received chunk later))
          with ⟨further, ended | left⟩
        · rfl
        · rfl

theorem received_tcp {reads : List (List UInt8)} (nonempty : ∀ read ∈ reads, read ≠ []) :
    received tcpChunk reads = reads.flatten := by
  induction reads with
  | nil => rfl
  | cons read _ ih =>
    have some : tcpChunk read = some read :=
      if_neg (fun empty => nonempty read (.head _) (List.isEmpty_iff.mp empty))
    rw [received, some, List.flatten_cons]
    exact congrArg (read ++ ·) (ih fun other member => nonempty other (.tail _ member))

theorem received_tcp_single (bytes : List UInt8) : received tcpChunk [bytes] = bytes := by
  cases bytes with
  | nil => rfl
  | cons byte later => exact List.append_nil (byte :: later)

theorem drain_ne_oversized (alive : Nat → Bool) (sent : Nat) (buf : List UInt8) :
    (drain alive sent buf).2 ≠ .error .oversized := by
  fun_induction drain alive sent buf with
  | case1 => nofun
  | case2 => nofun
  | case3 sent buf packet decoded answered further ih => exact ih
  | case4 => nofun

theorem readLoop_ne_oversized {Arrival : Type} (chunk : Arrival → Option (List UInt8))
    (alive : Nat → Bool) (sent : Nat) (buf : List UInt8) (arrivals : List Arrival) :
    (readLoop chunk alive sent buf arrivals).2 ≠ .oversized := by
  rw [readLoop_eq]
  have bounded := drain_ne_oversized alive sent (buf ++ received chunk arrivals)
  generalize drain alive sent (buf ++ received chunk arrivals) = drained at bounded ⊢
  obtain ⟨packets, ended | rest⟩ := drained
  · exact fun oversized => bounded (congrArg Except.error oversized)
  · nofun

/-- What the loops deliver does not depend on how the stream was cut, and `decode_one`
reads nothing outside its buffer, keeps it while it waits, takes a packet from its
front, and does not change its answer when more bytes are appended. -/
theorem stream_decoding :
    (∀ (alive : Nat → Bool) (reads : List (List UInt8)), (∀ read ∈ reads, read ≠ []) →
      tcpReadLoop alive reads = tcpReadLoop alive [reads.flatten]) ∧
      (∀ (alive : Nat → Bool) (messages : List WsMessage),
        wsReadLoop alive messages = wsReadLoop alive [.binary (received wsChunk messages)]) ∧
      (∀ (alive : Nat → Bool) (reads : List (List UInt8)) (messages : List WsMessage),
        (tcpReadLoop alive reads).2 ≠ .oversized ∧ (wsReadLoop alive messages).2 ≠ .oversized) ∧
      ∀ buf : List UInt8, (decodeOne buf).1 ≠ .error .outOfBounds ∧ ((decodeOne buf).1 = .ok none →
          (decodeOne buf).2 = buf ∧ buf.length ≤ maxPacketSize + 5) ∧
          (∀ packet, (decodeOne buf).1 = .ok (some packet) →
            ∃ taken, taken ≠ [] ∧ buf = taken ++ (decodeOne buf).2) ∧
          ((decodeOne buf).1 ≠ .ok none → ∀ more,
            decodeOne (buf ++ more) = ((decodeOne buf).1, (decodeOne buf).2 ++ more)) := by
  refine ⟨?_, ?_, ?_, ?_⟩
  · intro alive reads nonempty
    rw [tcpReadLoop, tcpReadLoop, readLoop_eq, readLoop_eq, received_tcp nonempty,
      received_tcp_single]
  · intro alive messages
    have single (bytes : List UInt8) : received wsChunk [.binary bytes] = bytes :=
      List.append_nil bytes
    rw [wsReadLoop, wsReadLoop, readLoop_eq, readLoop_eq, single]
  · exact fun alive reads messages =>
      ⟨readLoop_ne_oversized _ _ _ _ _, readLoop_ne_oversized _ _ _ _ _⟩
  · intro buf
    refine ⟨?_, decodeOne_waits, fun packet => decodeOne_takes, decodeOne_append⟩
    intro outside
    have safe := safely_decodeOne buf
    rw [outside] at safe
    exact safe rfl

/-! ## Whole packets -/

theorem drain_encoded {begun : List UInt8} (waits : (decodeOne begun).1 = .ok none) :
    ∀ {packets : List Packet} (sent : Nat), (∀ packet ∈ packets, packet.WellFormed) →
      drain (fun _ => true) sent (packets.flatMap encode ++ begun) = (packets, .ok begun)
  | [], _, _ => drain_waits waits
  | packet :: packets, sent, good => by
    have read := decodeOne_packet (good packet (.head _)) (packets.flatMap encode ++ begun)
    rw [List.flatMap_cons, List.append_assoc, drain_takes (by rw [read]), read,
      drain_encoded waits (sent + 1) fun other member => good other (.tail _ member)]
    rfl

/-- What a client writes, packets and perhaps the beginning of another, is delivered packet
by packet, however it was cut on the way. -/
theorem readLoop_encoded {Arrival : Type} (chunk : Arrival → Option (List UInt8))
    (arrivals : List Arrival) (packets : List Packet) (begun : List UInt8)
    (good : ∀ packet ∈ packets, packet.WellFormed) (waits : (decodeOne begun).1 = .ok none)
    (arrived : received chunk arrivals = packets.flatMap encode ++ begun) :
    readLoop chunk (fun _ => true) 0 [] arrivals = (packets, .closed) := by
  rw [readLoop_eq, List.nil_append, arrived, drain_encoded waits 0 good]
  rfl

theorem readLoop_encoded_ping :
    tcpReadLoop (fun _ => true) [[192], [0, 224], [0, 192]] = ([.pingReq, .disconnect], .closed) :=
  readLoop_encoded tcpChunk _ _ [192]
    (by simp [Packet.WellFormed, Packet.Writable, Packet.body]) (by decide) (by decide)

end Mqtt
end CanglingBroker
