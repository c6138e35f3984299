import CanglingBroker.Foundation.Bytes

/-!
# The order of texts by their bytes

`collate` compares two texts by their bytes.  UTF-8 keeps the order of the code points,
so that `collate` answers as the order of the texts does.
-/

namespace CanglingBroker
namespace Foundation

/-- `memcmp` of as many bytes as both sides have: the first two that differ decide. -/
def memcmp : List UInt8 → List UInt8 → Ordering
  | first :: rest, second :: others => (compare first second).then (memcmp rest others)
  | _, _ => .eq

/-- How SQLite compares `TEXT` values, and Rust strings: by their bytes, and by their
lengths where one is the beginning of the other. -/
def collate (left right : String) : Ordering :=
  (memcmp (textBytes left) (textBytes right)).then
    (compare (textBytes left).length (textBytes right).length)

theorem memcmp_then_length : ∀ left right : List UInt8,
    (memcmp left right).then (compare left.length right.length) = compare left right
  | [], [] => rfl
  | [], _ :: rest => by simp [memcmp, Nat.compare_eq_lt]
  | _ :: rest, [] => by simp [memcmp, Nat.compare_eq_gt]
  | first :: rest, second :: others => by
    have lengths : compare (rest.length + 1) (others.length + 1) =
        compare rest.length others.length := by
      simp [Nat.compare_eq_ite_lt]
    rw [List.compare_cons_cons, ← memcmp_then_length rest others]
    simp only [memcmp, List.length_cons, lengths, Ordering.then_assoc]

theorem compare_append (same first second : List UInt8) :
    compare (same ++ first) (same ++ second) = compare first second := by
  induction same with
  | nil => rfl
  | cons head tail ih =>
    rw [List.cons_append, List.cons_append, List.compare_cons_cons, ih, Std.ReflOrd.compare_self]
    rfl

theorem compare_ofNat_eq_lt {first second : Nat} (small : first < 256) (smallToo : second < 256) :
    compare (UInt8.ofNat first) (UInt8.ofNat second) = .lt ↔ first < second := by
  rw [show compare (UInt8.ofNat first) (UInt8.ofNat second) =
    compareOfLessAndEq (UInt8.ofNat first) (UInt8.ofNat second) from rfl,
    compareOfLessAndEq_eq_lt, UInt8.lt_iff_toNat_lt, UInt8.toNat_ofNat_of_lt' small,
    UInt8.toNat_ofNat_of_lt' smallToo]

theorem compare_ofNat_eq_eq {first second : Nat} (small : first < 256) (smallToo : second < 256) :
    compare (UInt8.ofNat first) (UInt8.ofNat second) = .eq ↔ first = second := by
  rw [Std.LawfulEqOrd.compare_eq_iff_eq, ← UInt8.toNat_inj, UInt8.toNat_ofNat_of_lt' small,
    UInt8.toNat_ofNat_of_lt' smallToo]

theorem utf8_lt {first second : Char} (smaller : first < second) (rest others : List UInt8) :
    compare (String.utf8EncodeChar first ++ rest) (String.utf8EncodeChar second ++ others) =
      .lt := by
  have numbers : first.val.toNat < second.val.toNat := smaller
  have bound : second.val.toNat < 1114112 := by
    have valid := second.valid
    simp only [UInt32.isValidChar, Nat.isValidChar] at valid
    omega
  have nested (number : Nat) (valid : number < 1114112) :
      number / 64 / 64 = number / 4096 ∧ number / 4096 / 64 = number / 262144 ∧
        number / 262144 % 8 = number / 262144 := by
    omega
  have ofFirst := nested first.val.toNat (Nat.lt_trans numbers bound)
  have ofSecond := nested second.val.toNat bound
  unfold String.utf8EncodeChar
  generalize first.val.toNat = low at *
  generalize second.val.toNat = high at *
  dsimp only
  repeat' split
  all_goals try omega
  all_goals
    simp (disch := omega) only [List.cons_append, List.compare_cons_cons, Ordering.then_eq_lt,
      compare_ofNat_eq_lt, compare_ofNat_eq_eq]
    omega

/-- UTF-8 keeps the order of the code points. -/
theorem compare_flatMap_utf8 : ∀ {left right : List Char}, left < right →
    compare (left.flatMap String.utf8EncodeChar) (right.flatMap String.utf8EncodeChar) = .lt
  | [], second :: others, _ => by
    rw [List.flatMap_cons]
    cases bytes : String.utf8EncodeChar second with
    | nil => exact absurd bytes String.utf8EncodeChar_ne_nil
    | cons => rfl
  | first :: rest, second :: others, smaller => by
    rw [List.flatMap_cons, List.flatMap_cons]
    rcases List.cons_lt_cons_iff.mp smaller with heads | ⟨rfl, tails⟩
    · exact utf8_lt heads _ _
    · rw [compare_append]
      exact compare_flatMap_utf8 tails

theorem collate_eq_compare_bytes (left right : String) :
    collate left right = compare (textBytes left) (textBytes right) :=
  memcmp_then_length _ _

theorem collate_of_lt {left right : String} (smaller : left < right) :
    collate left right = .lt := by
  have bytes (text : String) : textBytes text = text.toList.flatMap String.utf8EncodeChar := by
    rw [textBytes, String.toUTF8_eq_toByteArray, ← String.utf8Encode_toList]
    simp [List.utf8Encode]
  rw [collate_eq_compare_bytes, bytes, bytes]
  exact compare_flatMap_utf8 (String.lt_iff_toList_lt.mp smaller)

theorem collate_eq_compare (left right : String) : collate left right = compare left right := by
  rcases lt_trichotomy left right with smaller | rfl | greater
  · rw [collate_of_lt smaller, compare_lt_iff_lt.mpr smaller]
  · rw [collate_eq_compare_bytes, Std.ReflOrd.compare_self, Std.ReflOrd.compare_self]
  · have swapped : collate left right = (collate right left).swap := by
      rw [collate_eq_compare_bytes, collate_eq_compare_bytes]
      exact Std.OrientedOrd.eq_swap
    rw [swapped, collate_of_lt greater, compare_gt_iff_gt.mpr greater]
    rfl

end Foundation
end CanglingBroker
