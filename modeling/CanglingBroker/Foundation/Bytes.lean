import Mathlib

/-!
# Byte buffers

Texts and 16-bit numbers as bytes, and the reading of a buffer by index.  An access
outside the buffer is a fault of its own, so that a reader that checks its indices can
be shown to have none.

`At data offset rest` is the reader's position: `rest` is what it has in front of it.
-/

namespace CanglingBroker
namespace Foundation

/-! ## Values as bytes -/

def textBytes (text : String) : List UInt8 :=
  text.toUTF8.data.toList

def fromUtf8 (bytes : List UInt8) : Option String :=
  String.fromUTF8? ⟨bytes.toArray⟩

/-- `u16::to_be_bytes`. -/
def beBytes (value : UInt16) : List UInt8 :=
  [UInt8.ofNat (value.toNat / 256), UInt8.ofNat (value.toNat % 256)]

def fromBeBytes (high low : UInt8) : UInt16 :=
  UInt16.ofNat (high.toNat * 256 + low.toNat)

theorem fromUtf8_textBytes (text : String) : fromUtf8 (textBytes text) = some text := by
  have same : (⟨(textBytes text).toArray⟩ : ByteArray) = text.toByteArray :=
    congrArg ByteArray.mk Array.toArray_toList
  rw [fromUtf8, same]
  exact dif_pos text.isValidUTF8

theorem textBytes_of_fromUtf8 {bytes : List UInt8} {text : String}
    (decoded : fromUtf8 bytes = some text) :
    textBytes text = bytes := by
  unfold fromUtf8 String.fromUTF8? at decoded
  split at decoded
  · rw [← Option.some.inj decoded]
    exact List.toList_toArray
  · cases decoded

@[simp]
theorem length_beBytes (value : UInt16) : (beBytes value).length = 2 := rfl

theorem fromBeBytes_beBytes (value : UInt16) :
    fromBeBytes (UInt8.ofNat (value.toNat / 256)) (UInt8.ofNat (value.toNat % 256)) = value := by
  have small := value.toNat_lt
  unfold fromBeBytes
  rw [UInt8.toNat_ofNat', UInt8.toNat_ofNat', Nat.mod_eq_of_lt (by omega),
    Nat.mod_eq_of_lt (by omega), Nat.div_add_mod', UInt16.ofNat_toNat]

/-! ## Reading a buffer -/

/-- How the reading of a buffer fails: it is rejected, or an access is outside. -/
inductive Fault (Problem : Type) where
  | rejected (problem : Problem)
  | outOfBounds
  deriving DecidableEq, Repr

abbrev Reading (Problem Value : Type) : Type := Except (Fault Problem) Value

section Reading

variable {Problem Value Later : Type}

/-- `data[index]`. -/
def byteAt (data : List UInt8) (index : Nat) : Reading Problem UInt8 :=
  match data[index]? with
  | some byte => .ok byte
  | none => .error .outOfBounds

/-- `data[start..stop]`. -/
def slice (data : List UInt8) (start stop : Nat) : Reading Problem (List UInt8) :=
  if start ≤ stop ∧ stop ≤ data.length then
    .ok ((data.drop start).take (stop - start))
  else
    .error .outOfBounds

/-- The reading stays inside the buffer, and what it reads meets the condition. -/
def Safely (post : Value → Prop) : Reading Problem Value → Prop
  | .ok value => post value
  | .error fault => fault ≠ .outOfBounds

theorem safely_ok {post : Value → Prop} {value : Value} (holds : post value) :
    Safely post (.ok value : Reading Problem Value) :=
  holds

theorem safely_rejected {post : Value → Prop} (problem : Problem) :
    Safely post (.error (.rejected problem) : Reading Problem Value) :=
  nofun

theorem safely_bind {middle : Value → Prop} {post : Later → Prop} {first : Reading Problem Value}
    {next : Value → Reading Problem Later} (safe : Safely middle first)
    (later : ∀ value, middle value → Safely post (next value)) :
    Safely post (first >>= next) := by
  cases first with
  | ok value => exact later value safe
  | error => exact safe

theorem safely_map {post : Later → Prop} {first : Reading Problem Value} {convert : Value → Later}
    (safe : Safely (fun value => post (convert value)) first) :
    Safely post (convert <$> first) := by
  cases first with
  | ok => exact safe
  | error => exact safe

theorem Safely.mono {strong weak : Value → Prop} {reading : Reading Problem Value}
    (safe : Safely strong reading) (weaker : ∀ value, strong value → weak value) :
    Safely weak reading := by
  cases reading with
  | ok value => exact weaker value safe
  | error => exact safe

theorem safely_byteAt {data : List UInt8} {index : Nat} (inside : index < data.length) :
    Safely (fun _ => True) (byteAt data index : Reading Problem UInt8) := by
  rw [byteAt, List.getElem?_eq_getElem inside]
  trivial

theorem safely_slice {data : List UInt8} {start stop : Nat} (ordered : start ≤ stop)
    (inside : stop ≤ data.length) :
    Safely (fun part => part.length = stop - start)
      (slice data start stop : Reading Problem (List UInt8)) := by
  rw [slice, if_pos ⟨ordered, inside⟩]
  refine safely_ok ?_
  rw [List.length_take, List.length_drop]
  omega

/-! ## Positions -/

def At (data : List UInt8) (offset : Nat) (rest : List UInt8) : Prop :=
  ∃ front, data = front ++ rest ∧ front.length = offset

namespace At

variable {data part rest : List UInt8} {offset : Nat}

theorem start (whole : data = rest) : At data 0 rest := ⟨[], whole, rfl⟩

theorem length_eq (here : At data offset rest) : data.length = offset + rest.length := by
  obtain ⟨front, rfl, rfl⟩ := here
  exact List.length_append

theorem drop_eq (here : At data offset rest) : data.drop offset = rest := by
  obtain ⟨front, rfl, rfl⟩ := here
  exact List.drop_left

theorem skip (here : At data offset (part ++ rest)) : At data (offset + part.length) rest := by
  obtain ⟨front, rfl, rfl⟩ := here
  exact ⟨front ++ part, (List.append_assoc front part rest).symm, List.length_append⟩

theorem skip_byte {byte : UInt8} (here : At data offset (byte :: rest)) :
    At data (offset + 1) rest := by
  have split : At data offset ([byte] ++ rest) := here
  exact split.skip

theorem byteAt_eq {byte : UInt8} (here : At data offset (byte :: rest)) :
    (byteAt data offset : Reading Problem UInt8) = .ok byte := by
  obtain ⟨front, rfl, rfl⟩ := here
  rw [byteAt, List.getElem?_append_right (Nat.le_refl _), Nat.sub_self]
  rfl

theorem slice_eq (here : At data offset (part ++ rest)) :
    (slice data offset (offset + part.length) : Reading Problem (List UInt8)) = .ok part := by
  have long := here.length_eq
  rw [List.length_append] at long
  rw [slice, if_pos ⟨Nat.le_add_right _ _, by omega⟩, here.drop_eq, Nat.add_sub_cancel_left,
    List.take_left]

theorem slice_rest (here : At data offset rest) :
    (slice data offset data.length : Reading Problem (List UInt8)) = .ok rest := by
  have last := here.length_eq
  rw [← List.append_nil rest] at here
  rw [last]
  exact here.slice_eq

end At

end Reading

end Foundation
end CanglingBroker
