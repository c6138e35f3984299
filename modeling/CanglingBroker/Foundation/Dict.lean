import CanglingBroker.Foundation.Table

/-!
# Hash maps

More about `Dict`: keeping the entries that pass a test, how many entries a map
has, and that two maps with the same lookups have the same entries.
-/

namespace CanglingBroker
namespace Foundation
namespace Dict

variable {Key Value : Type}

def size (dict : Dict Key Value) : Nat :=
  dict.entries.length

def retain (keep : Key → Value → Bool) (dict : Dict Key Value) : Dict Key Value where
  entries := dict.entries.filter fun entry => keep entry.1 entry.2
  nodupKeys := dict.nodupKeys.sublist List.filter_sublist

theorem size_retain_le (keep : Key → Value → Bool) (dict : Dict Key Value) :
    size (retain keep dict) ≤ size dict :=
  List.length_filter_le _ _

variable [DecidableEq Key] (key : Key)

theorem size_insert (value : Value) (dict : Dict Key Value) :
    size (dict.insert key value) = size (dict.erase key) + 1 := by
  rw [size, AList.entries_insert]
  rfl

theorem size_erase_le (dict : Dict Key Value) : size (dict.erase key) ≤ size dict :=
  (List.kerase_sublist key dict.entries).length_le

variable {dict : Dict Key Value}

theorem size_erase_of_lookup {key : Key} {value : Value}
    (found : dict.lookup key = some value) :
    size (dict.erase key) + 1 = size dict := by
  obtain ⟨_, before, after, _, split, erased⟩ :=
    List.exists_of_kerase (AList.lookup_isSome.mp (by rw [found]; rfl))
  have whole : dict.entries.length = before.length + (after.length + 1) := by
    rw [split, List.length_append, List.length_cons]
  have part : (dict.erase key).entries.length = before.length + after.length := by
    rw [← List.length_append]
    exact congrArg List.length erased
  unfold size
  omega

theorem erase_of_lookup_eq_none {key : Key}
    (absent : dict.lookup key = none) :
    dict.erase key = dict :=
  AList.ext (List.kerase_of_notMem_keys (AList.lookup_eq_none.mp absent))

theorem size_insert_of_lookup {key : Key} {value : Value}
    (found : dict.lookup key = some value) (new : Value) :
    size (dict.insert key new) = size dict := by
  rw [size_insert, size_erase_of_lookup found]

theorem lookup_erase (other : Key) (dict : Dict Key Value) :
    (dict.erase key).lookup other = if other = key then none else dict.lookup other := by
  split
  · next same =>
    rw [same]
    exact AList.lookup_erase key dict
  · next different => exact AList.lookup_erase_ne different

theorem lookup_insert (other : Key) (value : Value) (dict : Dict Key Value) :
    (dict.insert key value).lookup other =
      if other = key then some value else dict.lookup other := by
  split
  · next same =>
    rw [same]
    exact AList.lookup_insert dict
  · next different => exact AList.lookup_insert_ne different

theorem lookup_retain (keep : Key → Value → Bool) (key : Key) (dict : Dict Key Value) :
    (retain keep dict).lookup key = (dict.lookup key).filter (keep key) := by
  ext value
  have kept : (⟨key, value⟩ : (_ : Key) × Value) ∈ (retain keep dict).entries ↔
      ⟨key, value⟩ ∈ dict.entries ∧ keep key value = true :=
    List.mem_filter
  rw [Option.filter_eq_some_iff, ← Option.mem_def, ← Option.mem_def,
    AList.mem_lookup_iff, AList.mem_lookup_iff]
  exact kept

theorem perm_of_lookup_eq {first second : Dict Key Value}
    (same : ∀ key, first.lookup key = second.lookup key) :
    first.entries.Perm second.entries :=
  List.lookup_ext first.nodupKeys second.nodupKeys fun key value => by
    have lookups : List.dlookup key first.entries = List.dlookup key second.entries := same key
    rw [lookups]

/-! ## Two maps seen alike -/

section Rows

variable {First Second Seen : Type}

theorem size_le_of_lookup {first : Dict Key First} {second : Dict Key Second}
    (known : ∀ key, (first.lookup key).isSome → (second.lookup key).isSome) :
    size first ≤ size second := by
  have contained : first.keys ⊆ second.keys := by
    intro key member
    exact AList.lookup_isSome.mp (known key (AList.lookup_isSome.mpr member))
  have short : first.keys.length ≤ second.keys.length :=
    (List.subperm_of_subset first.nodupKeys contained).length_le
  unfold AList.keys List.keys at short
  rwa [List.length_map, List.length_map] at short

def rows (view : Value → Seen) (dict : Dict Key Value) : List (Key × Seen) :=
  dict.entries.map fun entry => (entry.1, view entry.2)

theorem mem_rows {view : Value → Seen} {dict : Dict Key Value} {key : Key} {seen : Seen} :
    (key, seen) ∈ rows view dict ↔ (dict.lookup key).map view = some seen := by
  rw [rows, List.mem_map, Option.map_eq_some_iff]
  constructor
  · rintro ⟨entry, member, same⟩
    cases same
    exact ⟨entry.2, AList.mem_lookup_iff.mpr member, rfl⟩
  · rintro ⟨value, found, same⟩
    exact ⟨⟨key, value⟩, AList.mem_lookup_iff.mp found, by rw [same]⟩

omit [DecidableEq Key] in
theorem nodup_rows (view : Value → Seen) (dict : Dict Key Value) : (rows view dict).Nodup := by
  refine List.Nodup.of_map Prod.fst ?_
  have keys : (rows view dict).map Prod.fst = dict.keys := by
    rw [rows, List.map_map]
    rfl
  rw [keys]
  exact dict.nodupKeys

def byKey [LinearOrder Key] (listed : List (Key × Seen)) : List (Key × Seen) :=
  listed.mergeSort fun left right => decide (left.1 ≤ right.1)

omit [DecidableEq Key] in
theorem pairwise_byKey [LinearOrder Key] (listed : List (Key × Seen)) :
    (byKey listed).Pairwise fun left right => left.1 ≤ right.1 := by
  have sorted : (byKey listed).Pairwise fun left right => decide (left.1 ≤ right.1) = true := by
    refine List.pairwise_mergeSort ?_ ?_ listed
    · intro left middle right below above
      exact decide_eq_true ((of_decide_eq_true below).trans (of_decide_eq_true above))
    · intro left right
      rw [Bool.or_eq_true, decide_eq_true_eq, decide_eq_true_eq]
      exact le_total left.1 right.1
  exact sorted.imp of_decide_eq_true

theorem byKey_rows_eq [LinearOrder Key] {first : Dict Key First} {second : Dict Key Second}
    {firstView : First → Seen} {secondView : Second → Seen}
    (same : ∀ key, (first.lookup key).map firstView = (second.lookup key).map secondView) :
    byKey (rows firstView first) = byKey (rows secondView second) := by
  have shared : (rows firstView first).Perm (rows secondView second) :=
    (List.perm_ext_iff_of_nodup (nodup_rows _ _) (nodup_rows _ _)).mpr fun row => by
      rw [mem_rows, mem_rows, same]
  have permuted : (byKey (rows firstView first)).Perm (byKey (rows secondView second)) :=
    (List.mergeSort_perm _ _).trans (shared.trans (List.mergeSort_perm _ _).symm)
  refine permuted.eq_of_pairwise ?_ (pairwise_byKey _) (pairwise_byKey _)
  intro left right inLeft inRight below above
  -- Rows with the same key are the same row.
  have sameKey : left.1 = right.1 := le_antisymm below above
  have leftSeen := mem_rows.mp (shared.mem_iff.mp (List.mem_mergeSort.mp inLeft))
  have rightSeen := mem_rows.mp (List.mem_mergeSort.mp inRight)
  rw [sameKey] at leftSeen
  exact Prod.ext sameKey (Option.some.inj (leftSeen.symm.trans rightSeen))

end Rows

end Dict
end Foundation
end CanglingBroker
