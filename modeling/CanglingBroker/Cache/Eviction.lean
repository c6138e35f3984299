import CanglingBroker.Cache.Panics

/-!
# Which entries the cache evicts

The eviction loop of `set` removes the entry with the oldest access until the bound holds.
The new entry takes part in that search with the stamp it got before the mutex was taken, so
it stays only where enough other entries are strictly older than its stamp; among equals the
order in which the map happens to be walked decides.
-/

namespace CanglingBroker

open Foundation
open Dict (lookup_erase lookup_insert lookup_retain retain size size_erase_of_lookup
  size_insert size_le_of_lookup)

namespace CacheStore

/-! ## The key to evict -/

section Key

variable {rank : String → Nat} {entries : Dict String CacheEntry} {key : String}
  {entry : CacheEntry}

def walked (rank : String → Nat) (entries : Dict String CacheEntry) :
    List ((_ : String) × CacheEntry) :=
  entries.entries.mergeSort fun left right => decide (rank left.1 ≤ rank right.1)

theorem mem_walked {other : String} :
    (⟨other, entry⟩ : (_ : String) × CacheEntry) ∈ walked rank entries ↔
      entries.lookup other = some entry := by
  rw [walked, List.mem_mergeSort, ← AList.mem_lookup_iff, Option.mem_def]

theorem argmin_of_lruKey (found : lruKey rank entries = some key) : ∃ entry,
    entries.lookup key = some entry ∧
      ⟨key, entry⟩ ∈ (walked rank entries).argmin fun entry => entry.2.lastAccessed := by
  obtain ⟨⟨_, entry⟩, isMinimum, rfl⟩ := Option.map_eq_some_iff.mp found
  exact ⟨entry, mem_walked.mp (List.argmin_mem (Option.mem_def.mpr isMinimum)), isMinimum⟩

theorem lruKey_oldest (found : lruKey rank entries = some key) : ∃ entry,
    entries.lookup key = some entry ∧ ∀ other present, entries.lookup other = some present →
        entry.lastAccessed ≤ present.lastAccessed := by
  obtain ⟨entry, stored, isMinimum⟩ := argmin_of_lruKey found
  refine ⟨entry, stored, fun other present listed => ?_⟩
  exact List.le_of_mem_argmin (f := fun entry : (_ : String) × CacheEntry => entry.2.lastAccessed)
    (mem_walked.mpr listed) isMinimum

theorem head?_walked {first : String} (stored : entries.lookup first = some entry)
    (early : ∀ other, other ≠ first → rank first < rank other) :
    (walked rank entries).head? = some ⟨first, entry⟩ := by
  have listed : ⟨first, entry⟩ ∈ walked rank entries := mem_walked.mpr stored
  have sorted : (walked rank entries).Pairwise fun left right =>
      decide (rank left.1 ≤ rank right.1) = true := by
    refine List.pairwise_mergeSort ?_ ?_ entries.entries
    · intro left middle right below above
      exact decide_eq_true ((of_decide_eq_true below).trans (of_decide_eq_true above))
    · intro left right
      rw [Bool.or_eq_true, decide_eq_true_eq, decide_eq_true_eq]
      exact le_total _ _
  cases walk : walked rank entries with
  | nil =>
    rw [walk] at listed
    cases listed
  | cons head =>
    rw [walk] at listed sorted
    rcases List.mem_cons.mp listed with same | later
    · rw [← same]
      rfl
    · have below : rank head.1 ≤ rank first :=
        of_decide_eq_true ((List.pairwise_cons.mp sorted).1 _ later)
      have sameKey : head.1 = first := by
        by_contra different
        exact absurd (early head.1 different) (Nat.not_lt.mpr below)
      have headStored : entries.lookup head.1 = some head.2 :=
        mem_walked.mp (walk ▸ List.mem_cons_self)
      rw [sameKey, stored, Option.some.injEq] at headStored
      obtain ⟨headKey, headEntry⟩ := head
      cases sameKey
      cases headStored
      rfl

/-- Among equals, what is walked first is evicted. -/
theorem lruKey_of_first {first : String} {oldest : CacheEntry}
    (found : lruKey rank entries = some key) (isOldest : entries.lookup key = some oldest)
    (stored : entries.lookup first = some entry)
    (early : ∀ other, other ≠ first → rank first < rank other)
    (tied : entry.lastAccessed ≤ oldest.lastAccessed) : first = key := by
  obtain ⟨other, storedOther, isMinimum⟩ := argmin_of_lruKey found
  rw [isOldest, Option.some.injEq] at storedOther
  subst storedOther
  have index := List.index_of_argmin isMinimum (mem_walked.mpr stored) tied
  have head := head?_walked stored early
  cases walk : walked rank entries with
  | nil =>
    rw [walk] at head
    cases head
  | cons =>
    rw [walk, List.head?_cons, Option.some.injEq] at head
    rw [walk, head, List.idxOf_cons_self, Nat.le_zero_eq] at index
    rw [List.idxOf_cons] at index
    by_contra different
    have apart : ¬((⟨first, entry⟩ : (_ : String) × CacheEntry) == ⟨key, oldest⟩) = true := by
      rw [beq_iff_eq]
      intro same
      exact different (congrArg Sigma.fst same)
    rw [Bool.not_eq_true] at apart
    rw [apart] at index
    cases index

end Key

/-! ## The loop -/

def older (stamp : Nat) (entries : Dict String CacheEntry) : Nat :=
  size (retain (fun _ entry => decide (entry.lastAccessed < stamp)) entries)

section Loop

variable {rank : String → Nat} {bound stamp : Nat} {entries : Dict String CacheEntry}
  {key : String} {entry : CacheEntry}

theorem size_eq_of_lookup {first second : Dict String CacheEntry}
    (same : ∀ key, first.lookup key = second.lookup key) : size first = size second :=
  (Dict.perm_of_lookup_eq same).length_eq

theorem older_erase_of_lt (stored : entries.lookup key = some entry)
    (early : entry.lastAccessed < stamp) :
    older stamp (entries.erase key) + 1 = older stamp entries := by
  unfold older
  have found : (retain (fun _ entry => decide (entry.lastAccessed < stamp)) entries).lookup key =
      some entry := by
    rw [lookup_retain, stored]
    exact Option.filter_eq_some_iff.mpr ⟨rfl, decide_eq_true early⟩
  rw [← size_erase_of_lookup found]
  congr 1
  refine size_eq_of_lookup fun other => ?_
  rw [lookup_retain, lookup_erase, lookup_erase, lookup_retain]
  split
  · rfl
  · rfl

theorem older_eq_zero
    (least : ∀ other present, entries.lookup other = some present → stamp ≤ present.lastAccessed) :
    older stamp entries = 0 := by
  unfold older size
  rw [List.length_eq_zero_iff]
  refine List.filter_eq_nil_iff.mpr fun listed member => ?_
  rw [decide_eq_true_eq, Nat.not_lt]
  exact least listed.1 listed.2 (AList.mem_lookup_iff.mpr member)

theorem lookup_of_evict : ∀ {fuel : Nat} {entries : Dict String CacheEntry},
    (evict rank bound fuel entries).lookup key = some entry → entries.lookup key = some entry
  | 0, _, kept => kept
  | fuel + 1, entries, kept => by
    unfold evict at kept
    split at kept
    · exact kept
    · split at kept
      · exact kept
      · next evicted _ =>
        have before := lookup_of_evict kept
        rw [lookup_erase] at before
        split at before
        · cases before
        · exact before

/-- What is evicted was not accessed after anything that is kept. -/
theorem evict_oldest {gone kept : String} {goneEntry keptEntry : CacheEntry} :
    ∀ {fuel : Nat} {entries : Dict String CacheEntry},
      entries.lookup gone = some goneEntry → (evict rank bound fuel entries).lookup gone = none →
          (evict rank bound fuel entries).lookup kept = some keptEntry →
            goneEntry.lastAccessed ≤ keptEntry.lastAccessed
  | 0, _, stored, lost, _ => by
    rw [evict, stored] at lost
    cases lost
  | fuel + 1, entries, stored, lost, still => by
    have before := lookup_of_evict still
    unfold evict at lost still
    split at lost
    · rw [stored] at lost
      cases lost
    · next full =>
      rw [if_neg full] at still
      cases found : lruKey rank entries with
      | none =>
        rw [found] at lost
        rw [stored] at lost
        cases lost
      | some evicted =>
        rw [found] at lost still
        by_cases same : gone = evicted
        · obtain ⟨oldest, isOldest, least⟩ := lruKey_oldest found
          rw [← same, stored, Option.some.injEq] at isOldest
          rw [isOldest]
          exact least kept keptEntry before
        · refine evict_oldest ?_ lost still
          rw [lookup_erase, if_neg same]
          exact stored

theorem bound_le_size_evict : ∀ {fuel : Nat} {entries : Dict String CacheEntry},
    bound ≤ size entries → bound ≤ size (evict rank bound fuel entries)
  | 0, _, enough => enough
  | fuel + 1, entries, enough => by
    unfold evict
    split
    · exact enough
    · next full =>
      split
      · exact enough
      · next evicted found =>
        obtain ⟨oldest, stored, _⟩ := lruKey_oldest found
        have smaller := size_erase_of_lookup stored
        refine bound_le_size_evict ?_
        omega

/-- An entry survives if enough others are strictly older. -/
theorem lookup_evict_of_older (stamped : entry.lastAccessed = stamp) :
    ∀ {fuel : Nat} {entries : Dict String CacheEntry},
      entries.lookup key = some entry → size entries ≤ bound + older stamp entries →
        (evict rank bound fuel entries).lookup key = some entry
  | 0, _, stored, _ => stored
  | fuel + 1, entries, stored, enough => by
    unfold evict
    split
    · exact stored
    · next full =>
      split
      · exact stored
      · next evicted found =>
        obtain ⟨oldest, isOldest, least⟩ := lruKey_oldest found
        -- the oldest entry is strictly older than the stamp, as there are older ones
        have early : oldest.lastAccessed < stamp := by
          by_contra late
          have none : older stamp entries = 0 :=
            older_eq_zero fun other present listed =>
              (Nat.not_lt.mp late).trans (least other present listed)
          omega
        have different : key ≠ evicted := by
          rintro rfl
          rw [stored, Option.some.injEq] at isOldest
          rw [← isOldest, stamped] at early
          exact lt_irrefl _ early
        refine lookup_evict_of_older stamped ?_ ?_
        · rw [lookup_erase, if_neg different]
          exact stored
        · have fewer := older_erase_of_lt isOldest early
          have smaller := size_erase_of_lookup isOldest
          omega

/-- An entry that is walked first is evicted if too few others are strictly older. -/
theorem lookup_evict_of_first (stamped : entry.lastAccessed = stamp)
    (early : ∀ other, other ≠ key → rank key < rank other) :
    ∀ {fuel : Nat} {entries : Dict String CacheEntry},
      entries.lookup key = some entry → bound + older stamp entries < size entries →
        size entries ≤ bound + fuel → (evict rank bound fuel entries).lookup key = none
  | 0, _, _, few, enough => by omega
  | fuel + 1, entries, stored, few, enough => by
    obtain ⟨evicted, oldest, found, isOldest⟩ := exists_lruKey rank (Nat.zero_lt_of_lt few)
    have full : ¬size entries ≤ bound := by omega
    rw [evict, if_neg full, found]
    have smaller := size_erase_of_lookup isOldest
    by_cases same : key = evicted
    · cases lost : (evict rank bound fuel (entries.erase evicted)).lookup key with
      | none => rfl
      | some =>
        have before := lookup_of_evict lost
        rw [lookup_erase, if_pos same] at before
        cases before
    · have isOlder : oldest.lastAccessed < stamp := by
        by_contra late
        rw [← stamped] at late
        exact same (lruKey_of_first found isOldest stored early (Nat.not_lt.mp late))
      have fewer := older_erase_of_lt isOldest isOlder
      refine lookup_evict_of_first stamped early ?_ ?_ ?_
      · rw [lookup_erase, if_neg same]
        exact stored
      · omega
      · omega

end Loop

/-! ## `set` -/

/-- The key has the new value, and the unexpired entries that have gone were accessed no
later than any other that was kept, and would not have fitted in. -/
structure EvictsOldest (store : CacheStore) (key : String) (value : List UInt8)
    (valueType : String) (now : Nat) (after : CacheStore) : Prop where
  written :
    ∃ entry, after.entries.lookup key = some entry ∧ entry.value = value ∧
      entry.valueType = normalizeValueType valueType
  oldest :
    ∀ gone goneEntry, gone ≠ key → store.entries.lookup gone = some goneEntry →
      goneEntry.isExpired now = false → after.entries.lookup gone = none →
        ∀ kept keptEntry, kept ≠ key → after.entries.lookup kept = some keptEntry →
          goneEntry.lastAccessed ≤ keptEntry.lastAccessed
  needed :
    ∀ gone goneEntry, gone ≠ key → store.entries.lookup gone = some goneEntry →
      goneEntry.isExpired now = false → after.entries.lookup gone = none →
        store.maxEntries < size after.entries + 1

/-- There is room for the new entry, or it has not expired when room is made and enough
other entries are strictly older than its stamp. -/
def KeepsNew (store : CacheStore) (key : String) (ttl : Int) (moment : CacheMoment) : Prop :=
  size (store.entries.erase key) + 1 ≤ store.maxEntries ∨
    (∀ deadline, expireAtUtc moment.first ttl = some (some deadline) → moment.third < deadline) ∧
      size (live moment.third (store.entries.erase key)) + 1 ≤
        store.maxEntries + older moment.second (live moment.third (store.entries.erase key))

section Set

variable {store : CacheStore} {key valueType : String} {value : List UInt8} {ttl : Int}
  {moment : CacheMoment} {entry : CacheEntry} {now : Nat}

theorem lookup_live_insert (other : String) :
    (live now (store.entries.insert key entry)).lookup other =
      if other = key then
        if entry.isExpired now then none else some entry
      else
        (live now (store.entries.erase key)).lookup other := by
  rw [live, live, lookup_retain, lookup_retain, lookup_insert, lookup_erase]
  split
  · cases expired : entry.isExpired now with
    | true => simp [expired]
    | false => simp [expired]
  · rfl

theorem lookup_live_of_ne {other : String} {found : CacheEntry} (different : other ≠ key)
    (stored : store.entries.lookup other = some found) (fresh : found.isExpired now = false) :
    (live now (store.entries.insert key entry)).lookup other = some found := by
  rw [lookup_live_insert, if_neg different, live, lookup_retain, lookup_erase,
    if_neg different, stored]
  exact Option.filter_eq_some_iff.mpr ⟨rfl, by rw [fresh]; rfl⟩

theorem size_live_insert (fresh : entry.isExpired now = false) :
    size (live now (store.entries.insert key entry)) =
      size (live now (store.entries.erase key)) + 1 := by
  have absent : (live now (store.entries.erase key)).lookup key = none := by
    rw [live, lookup_retain, lookup_erase, if_pos rfl]
    rfl
  have inserted : size (live now (store.entries.insert key entry)) =
      size ((live now (store.entries.erase key)).insert key entry) := by
    refine size_eq_of_lookup fun other => ?_
    rw [lookup_live_insert, lookup_insert, fresh]
    rfl
  rw [inserted, size_insert, Dict.erase_of_lookup_eq_none absent]

theorem older_live_insert : older entry.lastAccessed (live now (store.entries.insert key entry)) =
    older entry.lastAccessed (live now (store.entries.erase key)) := by
  unfold older
  refine size_eq_of_lookup fun other => ?_
  rw [lookup_retain, lookup_retain, lookup_live_insert]
  split
  · next same =>
    have absent : (live now (store.entries.erase key)).lookup other = none := by
      rw [live, lookup_retain, lookup_erase, if_pos same]
      rfl
    rw [absent]
    split
    · rfl
    · simp
  · rfl

/-- The unexpired entries that the loop removes are the oldest, and had to go. -/
theorem evicted_oldest (full : store.maxEntries < size (store.entries.insert key entry))
    {gone : String} {goneEntry : CacheEntry} (different : gone ≠ key)
    (stored : store.entries.lookup gone = some goneEntry)
    (fresh : goneEntry.isExpired moment.third = false)
    (lost : (bounded moment store.maxEntries (store.entries.insert key entry)).lookup gone = none) :
    store.maxEntries < size (bounded moment store.maxEntries (store.entries.insert key entry)) + 1 ∧
      ∀ kept keptEntry,
        (bounded moment store.maxEntries (store.entries.insert key entry)).lookup kept =
            some keptEntry →
          goneEntry.lastAccessed ≤ keptEntry.lastAccessed := by
  have remained :
      (live moment.third (store.entries.insert key entry)).lookup gone = some goneEntry :=
    lookup_live_of_ne different stored fresh
  unfold bounded at lost ⊢
  rw [if_pos full] at lost ⊢
  dsimp only at lost ⊢
  refine ⟨?_, fun kept keptEntry still => evict_oldest remained lost still⟩
  have crowded : store.maxEntries ≤ size (live moment.third (store.entries.insert key entry)) := by
    by_contra sparse
    rw [evict_of_size_le (Nat.not_le.mp sparse).le, remained] at lost
    cases lost
  exact Nat.lt_succ_of_le (bound_le_size_evict crowded)

theorem lookup_bounded_iff (full : store.maxEntries < size (store.entries.insert key entry)) :
    (∀ rank,
        (bounded { moment with rank := rank } store.maxEntries
          (store.entries.insert key entry)).lookup key = some entry) ↔
      entry.isExpired moment.third = false ∧
        size (live moment.third (store.entries.erase key)) + 1 ≤ store.maxEntries +
            older entry.lastAccessed (live moment.third (store.entries.erase key)) := by
  have evicts : ∀ rank,
      bounded { moment with rank := rank } store.maxEntries (store.entries.insert key entry) =
        evict rank store.maxEntries
          (size (live moment.third (store.entries.insert key entry)))
          (live moment.third (store.entries.insert key entry)) :=
    fun rank => if_pos full
  simp only [evicts]
  cases expired : entry.isExpired moment.third with
  | true =>
    refine iff_of_false (fun stays => ?_) fun both => Bool.noConfusion both.1
    have before := lookup_of_evict (stays fun _ => 0)
    rw [lookup_live_insert, if_pos rfl, if_pos expired] at before
    cases before
  | false =>
    have stored : (live moment.third (store.entries.insert key entry)).lookup key = some entry := by
      rw [lookup_live_insert, if_pos rfl, expired]
      rfl
    rw [← size_live_insert expired, ← @older_live_insert store key entry moment.third]
    constructor
    · intro stays
      refine ⟨rfl, ?_⟩
      by_contra few
      -- a walk that comes to the new entry first
      have early : ∀ other, other ≠ key →
          (if key = key then 0 else 1) < if other = key then 0 else 1 := by
        intro other different
        rw [if_pos rfl, if_neg different]
        exact Nat.zero_lt_one
      have lost :=
        @lookup_evict_of_first (fun other => if other = key then 0 else 1) store.maxEntries
          entry.lastAccessed key entry rfl early
          (size (live moment.third (store.entries.insert key entry))) _ stored
          (Nat.not_le.mp few) (Nat.le_add_left _ _)
      rw [stays] at lost
      cases lost
    · rintro ⟨_, enough⟩ rank
      exact lookup_evict_of_older rfl stored enough

theorem eq_of_lookup_bounded {found : CacheEntry}
    (still :
      (bounded moment store.maxEntries (store.entries.insert key entry)).lookup key = some found) :
    found = entry := by
  unfold bounded at still
  split at still
  · have before := lookup_of_evict still
    rw [lookup_live_insert, if_pos rfl] at before
    split at before
    · cases before
    · exact (Option.some.inj before).symm
  · rw [AList.lookup_insert] at still
    exact (Option.some.inj still).symm

theorem isExpired_eq_false_iff :
    entry.isExpired now = false ↔ ∀ deadline, entry.expireAt = some deadline → now < deadline := by
  unfold CacheEntry.isExpired
  cases entry.expireAt with
  | none => exact iff_of_true rfl nofun
  | some deadline =>
    rw [Option.any_some, decide_eq_false_iff_not, Nat.not_le]
    constructor
    · intro later other same
      cases same
      exact later
    · exact fun later => later deadline rfl

theorem set_of_stored (stored : (store.set key value valueType ttl moment).1 = .stored) :
    ∃ expireAt, expireAtUtc moment.first ttl = some expireAt ∧
        ∀ rank, (store.set key value valueType ttl { moment with rank := rank }).2 =
            store.withEntries
              (bounded { moment with rank := rank } store.maxEntries
                (store.entries.insert key
                  ⟨value, normalizeValueType valueType, expireAt, moment.second⟩)) := by
  unfold set at stored
  cases computed : expireAtUtc moment.first ttl with
  | none =>
    rw [computed] at stored
    cases stored
  | some expireAt =>
    refine ⟨expireAt, rfl, fun rank => ?_⟩
    rw [computed] at stored
    cases poisoned : store.poisoned with
    | true =>
      simp only [locked, poisoned, if_true] at stored
      cases stored
    | false =>
      unfold set
      simp only [computed, locked_eq poisoned]

end Set

end CacheStore

/-- A `set` keeps what it has just written and evicts the least recently used entries, in
whatever order the map is walked, exactly when there is room for the new entry or enough
unexpired entries are strictly older than its stamp. -/
theorem set_evicts_oldest_iff (store : CacheStore) (key : String) (value : List UInt8)
    (valueType : String) (ttl : Int) (moment : CacheMoment)
    (stored : (store.set key value valueType ttl moment).1 = .stored) :
    (∀ rank,
        store.EvictsOldest key value valueType moment.third
          (store.set key value valueType ttl { moment with rank := rank }).2) ↔
      store.KeepsNew key ttl moment := by
  obtain ⟨expireAt, computed, sets⟩ := CacheStore.set_of_stored stored
  simp only [sets]
  by_cases full :
    store.maxEntries < size (store.entries.insert key
        ⟨value, normalizeValueType valueType, expireAt, moment.second⟩)
  · have crowded : ¬size (store.entries.erase key) + 1 ≤ store.maxEntries := by
      rw [size_insert] at full
      exact Nat.not_le.mpr full
    rw [CacheStore.KeepsNew, or_iff_right crowded, computed]
    have unexpired : (∀ deadline, some expireAt = some (some deadline) → moment.third < deadline) ↔
        (⟨value, normalizeValueType valueType, expireAt, moment.second⟩ :
          CacheEntry).isExpired moment.third = false := by
      rw [CacheStore.isExpired_eq_false_iff]
      simp only [Option.some.injEq]
    rw [unexpired]
    refine Iff.trans ?_ (CacheStore.lookup_bounded_iff full)
    constructor
    · intro good rank
      obtain ⟨entry, still, _⟩ := (good rank).written
      obtain rfl := CacheStore.eq_of_lookup_bounded still
      exact still
    · intro stays rank
      refine ⟨⟨_, stays rank, rfl, rfl⟩, ?_, ?_⟩
      · intro gone goneEntry different before fresh lost kept keptEntry _ still
        exact (@CacheStore.evicted_oldest store key { moment with rank := rank } _ full gone
          goneEntry different before fresh lost).2 kept keptEntry still
      · intro gone goneEntry different before fresh lost
        exact (@CacheStore.evicted_oldest store key { moment with rank := rank } _ full gone
          goneEntry different before fresh lost).1
  · have unchanged :
        ∀ rank, CacheStore.bounded { moment with rank := rank } store.maxEntries
            (store.entries.insert key
              ⟨value, normalizeValueType valueType, expireAt, moment.second⟩) =
            store.entries.insert key
              ⟨value, normalizeValueType valueType, expireAt, moment.second⟩ :=
      fun rank => if_neg full
    refine iff_of_true (fun rank => ?_) (.inl ?_)
    · rw [unchanged]
      have kept : ∀ {gone goneEntry}, gone ≠ key → store.entries.lookup gone = some goneEntry →
          (store.entries.insert key
            ⟨value, normalizeValueType valueType, expireAt, moment.second⟩).lookup gone ≠
              none := by
        intro gone goneEntry different before lost
        rw [lookup_insert, if_neg different, before] at lost
        cases lost
      refine ⟨⟨_, AList.lookup_insert _, rfl, rfl⟩, ?_, ?_⟩
      · exact fun gone goneEntry different before _ lost => absurd lost (kept different before)
      · exact fun gone goneEntry different before _ lost => absurd lost (kept different before)
    · rw [← size_insert]
      exact Nat.not_lt.mp full

def CacheStore.readings (stamp now : Nat) : CacheMoment :=
  ⟨stamp, stamp, now, fun _ => 0⟩

def CacheStore.oneEntry : CacheStore :=
  ((new 1).set "a" [97] "" 0 (readings 5 5)).2

theorem set_evicts_oldest_iff_later :
    (CacheStore.oneEntry.set "b" [98] "" 0 (CacheStore.readings 6 7)).1 = .stored ∧ (∀ rank,
        CacheStore.oneEntry.EvictsOldest "b" [98] "" 7
          (CacheStore.oneEntry.set "b" [98] "" 0
            { CacheStore.readings 6 7 with rank := rank }).2) := by
  have stored : (CacheStore.oneEntry.set "b" [98] "" 0 (CacheStore.readings 6 7)).1 = .stored := by
    decide +kernel
  refine ⟨stored, (set_evicts_oldest_iff _ _ _ _ _ _ stored).mpr (.inr ⟨?_, ?_⟩)⟩
  · intro deadline same
    cases same
  · decide +kernel

/-- An entry that was stamped before the mutex was taken is evicted by its own `set`. -/
theorem set_evicts_itself : ∃ final,
    run CacheStore.step (CacheStore.new 1)
        [⟨.set "a" [97] "" 0, CacheStore.readings 5 5⟩,
          ⟨.set "b" [98] "" 0, CacheStore.readings 4 6⟩] = some final ∧
      final.entries.lookup "b" = none ∧
      final.entries.lookup "a" = some ⟨[97], "string", none, 5⟩ := by
  let both : Dict String CacheEntry :=
    CacheStore.oneEntry.entries.insert "b" ⟨[98], "string", none, 4⟩
  obtain ⟨key, oldest, found, stored⟩ :=
    CacheStore.exists_lruKey (fun _ => 0) (by decide +kernel : 0 < size both)
  obtain ⟨_, sameEntry, least⟩ := CacheStore.lruKey_oldest found
  rw [stored, Option.some.injEq] at sameEntry
  subst sameEntry
  -- the entry of the first call has the later stamp
  have isNew : key = "b" := by
    by_contra different
    have early := least "b" ⟨[98], "string", none, 4⟩ (by decide +kernel)
    rw [lookup_insert, if_neg different] at stored
    have only : CacheStore.oneEntry.entries =
        (∅ : Dict String CacheEntry).insert "a" ⟨[97], "string", none, 5⟩ := rfl
    rw [only, lookup_insert] at stored
    split at stored <;> cases stored
    exact absurd early (by decide)
  have evicts : (CacheStore.oneEntry.set "b" [98] "" 0 (CacheStore.readings 4 6)).2.entries =
      CacheStore.evict (fun _ => 0) 1 2 both :=
    rfl
  rw [CacheStore.evict, if_neg (by decide +kernel), found, isNew] at evicts
  dsimp only at evicts
  rw [CacheStore.evict_of_size_le (by decide +kernel)] at evicts
  refine ⟨_, rfl, ?_⟩
  refine ⟨(congrArg (fun entries => entries.lookup "b") evicts).trans ?_,
    (congrArg (fun entries => entries.lookup "a") evicts).trans ?_⟩
  · decide +kernel
  · decide +kernel

end CanglingBroker
