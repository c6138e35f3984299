import CanglingBroker.Foundation.Table

/-!
# Recently used idempotency keys

`RecentIds` remembers the identifiers given out for the newest keys of a shard.
Inserting a new key evicts the oldest ones in a loop that only ends because the
queue of keys and the table have the same keys.  `Followed` runs the table beside
what was done to it: when the stay of each key began and what was inserted last.
-/

namespace CanglingBroker

open Foundation

structure RecentIds where
  values : Dict String String
  order : List String
  capacity : Nat

namespace RecentIds

def new (capacity : Nat) : RecentIds where
  values := ∅
  order := []
  capacity := capacity

def get (recent : RecentIds) (key : String) : Option String :=
  recent.values.lookup key

/-- The eviction loop of `insert`, over the queue of keys.  It never ends when
the queue runs out before the table is small enough. -/
def evict (capacity : Nat) :
    List String → Dict String String → Option (List String × Dict String String)
  | order, values =>
    if values.keys.length < capacity then
      some (order, values)
    else
      match order with
      | [] => none
      | oldest :: rest => evict capacity rest (values.erase oldest)

def insert (recent : RecentIds) (key id : String) : Option RecentIds :=
  if key ∈ recent.values then
    some { recent with values := recent.values.insert key id }
  else
    match evict recent.capacity recent.order recent.values with
    | none => none
    | some (order, values) =>
      some
        { recent with
          order := order ++ [key]
          values := values.insert key id }

def remove (recent : RecentIds) (key : String) : RecentIds :=
  { recent with
    values := recent.values.erase key
    order := recent.order.filter (· != key) }

theorem keys_erase_perm {oldest : String} {rest : List String} {values : Dict String String}
    (tracked : (oldest :: rest).Perm values.keys) :
    rest.Perm (values.erase oldest).keys := by
  rw [AList.keys_erase]
  have erased := tracked.erase oldest
  rwa [List.erase_cons_head] at erased

/-- Where the queue has the keys of the table the eviction ends.  It drops the oldest keys,
no more than needed, and changes nothing for the others. -/
theorem evict_spec {capacity : Nat} (positive : 0 < capacity) :
    ∀ {order : List String} {values : Dict String String}, order.Perm values.keys →
      ∃ remaining : Dict String String, evict capacity order values =
          some (order.drop (order.length + 1 - capacity), remaining) ∧
          (order.drop (order.length + 1 - capacity)).Perm remaining.keys ∧
          ∀ key ∈ order.drop (order.length + 1 - capacity), remaining.lookup key = values.lookup key
  | [], values, tracked => by
    have size : values.keys.length < capacity := by
      rw [← tracked.length_eq]
      exact positive
    refine ⟨values, ?_, ?_, fun _ _ => rfl⟩
    · unfold evict
      rw [if_pos size, List.drop_nil]
    · rwa [List.drop_nil]
  | oldest :: rest, values, tracked => by
    have size : values.keys.length = rest.length + 1 := tracked.length_eq.symm
    have unique : (oldest :: rest).Nodup := tracked.nodup_iff.mpr values.nodupKeys
    unfold evict
    by_cases room : values.keys.length < capacity
    · have none : (oldest :: rest).length + 1 - capacity = 0 := by
        rw [List.length_cons]
        omega
      rw [if_pos room, none, List.drop_zero]
      exact ⟨values, rfl, tracked, fun _ _ => rfl⟩
    · obtain ⟨remaining, evicted, kept, same⟩ := evict_spec positive (keys_erase_perm tracked)
      have more : (oldest :: rest).drop ((oldest :: rest).length + 1 - capacity) =
          rest.drop (rest.length + 1 - capacity) := by
        have count : (oldest :: rest).length + 1 - capacity = (rest.length + 1 - capacity) + 1 := by
          rw [List.length_cons]
          omega
        rw [count, List.drop_succ_cons]
      rw [if_neg room, more]
      refine ⟨remaining, evicted, kept, fun key member => ?_⟩
      have different : key ≠ oldest := by
        rintro rfl
        exact (List.nodup_cons.mp unique).1 (List.mem_of_mem_drop member)
      rw [same key member, AList.lookup_erase_ne different]

variable {key id : String} {recent : RecentIds}

theorem lookup_of_evict {capacity : Nat} :
    ∀ {order kept : List String} {values remaining : Dict String String},
      evict capacity order values = some (kept, remaining) →
        remaining.lookup key = some id → values.lookup key = some id
  | order, kept, values, remaining, evicted, found => by
    unfold evict at evicted
    split at evicted
    · cases evicted
      exact found
    · split at evicted
      · cases evicted
      · next oldest rest =>
        have earlier := lookup_of_evict evicted found
        by_cases same : key = oldest
        · subst same
          rw [AList.lookup_erase] at earlier
          cases earlier
        · rwa [AList.lookup_erase_ne same] at earlier

theorem get_insert_self {inserted : RecentIds} (done : recent.insert key id = some inserted) :
    inserted.get key = some id := by
  unfold insert at done
  split at done
  · cases done
    exact AList.lookup_insert _
  · split at done <;> cases done
    exact AList.lookup_insert _

theorem get_of_insert {inserted : RecentIds} {other found : String}
    (done : recent.insert key id = some inserted) (shown : inserted.get other = some found) :
    (other = key ∧ found = id) ∨ recent.get other = some found := by
  by_cases same : other = key
  · subst same
    rw [get_insert_self done, Option.some.injEq] at shown
    exact .inl ⟨rfl, shown.symm⟩
  · refine .inr ?_
    unfold insert at done
    split at done
    · cases done
      rwa [get, AList.lookup_insert_ne same] at shown
    · split at done
      · cases done
      · next order values evicted =>
        cases done
        rw [get, AList.lookup_insert_ne same] at shown
        exact lookup_of_evict evicted shown

theorem get_of_remove {other found : String} (shown : (recent.remove key).get other = some found) :
    recent.get other = some found := by
  by_cases same : other = key
  · subst same
    rw [get, remove, AList.lookup_erase] at shown
    cases shown
  · rwa [get, remove, AList.lookup_erase_ne same] at shown

/-! ## Runs -/

/-- What is done to a table. -/
inductive Op where
  | insert (key id : String)
  | remove (key : String)
  | get (key : String)

/-- A table, the number of operations so far, the operation that began the present stay of
each key, and the identifier that was inserted last under it. -/
structure Followed where
  recent : RecentIds
  count : Nat
  since : String → Nat
  last : String → Option String

namespace Followed

def start (capacity : Nat) : Followed :=
  ⟨RecentIds.new capacity, 0, fun _ => 0, fun _ => none⟩

/-- One operation; none when the eviction loop never ends. -/
def step (followed : Followed) : Op → Option Followed
  | .insert key id =>
    match followed.recent.insert key id with
    | none => none
    | some recent =>
      some
        { recent := recent
          count := followed.count + 1
          since :=
            if key ∈ followed.recent.values then followed.since
            else Function.update followed.since key followed.count
          last := Function.update followed.last key (some id) }
  | .remove key =>
    some { followed with recent := followed.recent.remove key, count := followed.count + 1 }
  | .get _ => some { followed with count := followed.count + 1 }

/-- The queue lists the keys of the table, each once, in the order in which their stays
began, and there are at most as many as the capacity; a key is found with the identifier
inserted last under it as long as it stays. -/
structure Represented (capacity : Nat) (followed : Followed) : Prop where
  capacity_eq : followed.recent.capacity = capacity
  tracked : followed.recent.order.Perm followed.recent.values.keys
  within : followed.recent.values.keys.length ≤ capacity
  begun : ∀ key ∈ followed.recent.order, followed.since key < followed.count
  ordered :
    followed.recent.order.Pairwise fun earlier later =>
      followed.since earlier < followed.since later
  found :
    ∀ key, followed.recent.get key =
        if key ∈ followed.recent.order then followed.last key else none

/-- What an operation does to the queue: a new key goes to its end and the oldest keys, as
many as there is no room for, leave it; a removed key leaves it. -/
def Turns (before after : RecentIds) : Op → Prop
  | .insert key _ =>
    after.order =
      if key ∈ before.order then before.order
      else before.order.drop (before.order.length + 1 - before.capacity) ++ [key]
  | .remove key => after.order = before.order.filter (· != key)
  | .get _ => after.order = before.order

variable {capacity : Nat} {followed : Followed} {key : String}

theorem mem_order (represented : Represented capacity followed) :
    key ∈ followed.recent.order ↔ key ∈ followed.recent.values :=
  represented.tracked.mem_iff

theorem Represented.insert_present (represented : Represented capacity followed) {id : String}
    (present : key ∈ followed.recent.values) :
    ∃ next, followed.step (.insert key id) = some next ∧ Represented capacity next ∧
      Turns followed.recent next.recent (.insert key id) := by
  have listed := (mem_order represented).mpr present
  have keys : followed.recent.values.keys.Perm (followed.recent.values.insert key id).keys := by
    rw [AList.keys_insert]
    exact List.perm_cons_erase present
  simp only [step, RecentIds.insert, if_pos present]
  refine ⟨_, rfl, ⟨represented.capacity_eq, represented.tracked.trans keys, ?_, ?_, ?_, ?_⟩, ?_⟩
  · exact keys.length_eq ▸ represented.within
  · exact fun other member => Nat.lt_succ_of_lt (represented.begun other member)
  · exact represented.ordered
  · intro other
    dsimp only
    by_cases same : other = key
    · subst same
      rw [if_pos listed, Function.update_self]
      exact AList.lookup_insert _
    · rw [Function.update_of_ne same, ← represented.found other]
      exact AList.lookup_insert_ne same
  · exact (if_pos listed).symm

theorem Represented.insert_new (positive : 0 < capacity)
    (represented : Represented capacity followed) {id : String}
    (absent : key ∉ followed.recent.values) :
    ∃ next, followed.step (.insert key id) = some next ∧ Represented capacity next ∧
      Turns followed.recent next.recent (.insert key id) := by
  have unlisted : key ∉ followed.recent.order := fun member =>
    absent ((mem_order represented).mp member)
  obtain ⟨remaining, evicted, kept, same⟩ := evict_spec positive represented.tracked
  rw [← represented.capacity_eq] at evicted kept same
  generalize dropped :
    followed.recent.order.drop
      (followed.recent.order.length + 1 - followed.recent.capacity) = order at evicted kept same
  have fewer : order.Sublist followed.recent.order := dropped ▸ List.drop_sublist _ _
  have stillAbsent : key ∉ remaining := fun member =>
    unlisted (fewer.subset (kept.mem_iff.mpr member))
  have keys : (remaining.insert key id).keys.Perm (key :: remaining.keys) := by
    rw [AList.keys_insert, List.erase_of_not_mem stillAbsent]
  have other : ∀ later ∈ order, later ≠ key := fun later member equal =>
    unlisted (fewer.subset (equal ▸ member))
  simp only [step, RecentIds.insert, if_neg absent, evicted]
  refine ⟨_, rfl, ⟨represented.capacity_eq, ?_, ?_, ?_, ?_, ?_⟩, ?_⟩
  · exact (List.perm_append_singleton key order).trans ((kept.cons key).trans keys.symm)
  · have size := congrArg List.length dropped
    have before := represented.capacity_eq
    rw [List.length_drop] at size
    rw [keys.length_eq, List.length_cons, ← kept.length_eq]
    omega
  · intro later member
    dsimp only
    rcases List.mem_append.mp member with old | new
    · rw [Function.update_of_ne (other later old)]
      exact Nat.lt_succ_of_lt (represented.begun later (fewer.subset old))
    · rw [List.mem_singleton.mp new, Function.update_self]
      exact Nat.lt_succ_self _
  · refine List.pairwise_append.mpr ⟨?_, List.pairwise_singleton _ _, ?_⟩
    · refine (represented.ordered.sublist fewer).imp_of_mem
        fun {first second} isFirst isSecond le => ?_
      dsimp only
      rwa [Function.update_of_ne (other first isFirst),
        Function.update_of_ne (other second isSecond)]
    · intro first isFirst second isSecond
      dsimp only
      rw [List.mem_singleton.mp isSecond, Function.update_self,
        Function.update_of_ne (other first isFirst)]
      exact represented.begun first (fewer.subset isFirst)
  · intro asked
    dsimp only
    by_cases equal : asked = key
    · subst equal
      rw [if_pos (List.mem_append_right _ (List.mem_singleton_self _)), Function.update_self]
      exact AList.lookup_insert _
    · have there : asked ∈ order ++ [key] ↔ asked ∈ order := by simp [equal]
      rw [Function.update_of_ne equal]
      refine (AList.lookup_insert_ne equal).trans ?_
      by_cases stays : asked ∈ order
      · rw [if_pos (there.mpr stays), same asked stays]
        exact (represented.found asked).trans (if_pos (fewer.subset stays))
      · rw [if_neg fun member => stays (there.mp member)]
        exact AList.lookup_eq_none.mpr fun member => stays (kept.mem_iff.mpr member)
  · rw [Turns, if_neg unlisted, dropped]

theorem Represented.remove (represented : Represented capacity followed) (key : String) :
    ∃ next, followed.step (.remove key) = some next ∧ Represented capacity next ∧
      Turns followed.recent next.recent (.remove key) := by
  have unique : followed.recent.order.Nodup :=
    represented.tracked.nodup_iff.mpr followed.recent.values.nodupKeys
  have erased := represented.tracked.erase key
  rw [unique.erase_eq_filter] at erased
  have fewer : (followed.recent.order.filter (· != key)).Sublist followed.recent.order :=
    List.filter_sublist
  refine ⟨_, rfl, ⟨represented.capacity_eq, ?_, ?_, ?_, ?_, ?_⟩, rfl⟩
  · exact erased.trans (List.Perm.of_eq (AList.keys_erase key followed.recent.values).symm)
  · refine le_trans ?_ represented.within
    change (followed.recent.values.erase key).keys.length ≤ _
    rw [AList.keys_erase]
    exact List.erase_sublist.length_le
  · exact fun other member => Nat.lt_succ_of_lt (represented.begun other (fewer.subset member))
  · exact represented.ordered.sublist fewer
  · intro asked
    by_cases equal : asked = key
    · subst equal
      refine (AList.lookup_erase _ _).trans (if_neg ?_).symm
      simp [RecentIds.remove]
    · refine (AList.lookup_erase_ne equal).trans ((represented.found asked).trans ?_)
      simp [RecentIds.remove, equal]

theorem Represented.turn (positive : 0 < capacity) (represented : Represented capacity followed)
    (op : Op) :
    ∃ next, followed.step op = some next ∧ Represented capacity next ∧
      Turns followed.recent next.recent op := by
  cases op with
  | insert key id =>
    by_cases present : key ∈ followed.recent.values
    · exact represented.insert_present present
    · exact represented.insert_new positive present
  | remove key => exact represented.remove key
  | get key =>
    refine ⟨_, rfl, ⟨represented.capacity_eq, represented.tracked, represented.within, ?_,
      represented.ordered, represented.found⟩, rfl⟩
    exact fun other member => Nat.lt_succ_of_lt (represented.begun other member)

theorem represented_start (capacity : Nat) : Represented capacity (start capacity) :=
  ⟨rfl, List.Perm.nil, Nat.zero_le _, nofun, List.Pairwise.nil, fun _ => rfl⟩

theorem exists_run (positive : 0 < capacity) :
    ∀ (ops : List Op) {followed : Followed}, Represented capacity followed →
      ∃ reached, run step followed ops = some reached ∧ Represented capacity reached
  | [], followed, represented => ⟨followed, rfl, represented⟩
  | op :: rest, followed, represented => by
    obtain ⟨next, stepped, kept, _⟩ := represented.turn positive op
    obtain ⟨reached, ran, there⟩ := exists_run positive rest kept
    exact ⟨reached, run_cons_eq_some.mpr ⟨next, stepped, ran⟩, there⟩

end Followed

/-- From the empty table every sequence of operations ends in a table that is represented,
and so does one operation more, which evicts exactly the oldest keys. -/
theorem recentIds_represented (capacity : Nat) (positive : 0 < capacity) (ops : List Op) :
    ∃ reached, run Followed.step (Followed.start capacity) ops = some reached ∧
        reached.Represented capacity ∧ reached.recent.order.Nodup ∧
        ∀ op, ∃ next, reached.step op = some next ∧ next.Represented capacity ∧
          Followed.Turns reached.recent next.recent op := by
  obtain ⟨reached, ran, represented⟩ :=
    Followed.exists_run positive ops (Followed.represented_start capacity)
  refine ⟨reached, ran, represented, ?_, fun op => represented.turn positive op⟩
  exact represented.tracked.nodup_iff.mpr reached.recent.values.nodupKeys

theorem recentIds_represented_evicts : ∃ reached,
    run Followed.step (Followed.start 2)
        [.insert "a" "1", .insert "b" "2", .insert "a" "3", .insert "c" "4"] =
      some reached ∧ reached.Represented 2 := by
  obtain ⟨reached, ran, represented, _⟩ :=
    recentIds_represented 2 (by decide)
      [.insert "a" "1", .insert "b" "2", .insert "a" "3", .insert "c" "4"]
  exact ⟨reached, ran, represented⟩

end RecentIds

end CanglingBroker
