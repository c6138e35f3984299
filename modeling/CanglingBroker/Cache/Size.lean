import CanglingBroker.Cache.Store

/-!
# How many entries the cache has

`set` evicts entries until the bound holds again; `incr` creates entries and evicts
none.
-/

namespace CanglingBroker

open Foundation
open Dict (size retain size_insert size_erase_le size_erase_of_lookup
  size_insert_of_lookup size_retain_le erase_of_lookup_eq_none)

namespace CacheStore

/-! ## The eviction loop -/

variable {entries : Dict String CacheEntry}

theorem exists_lruKey (rank : String → Nat)
    (nonempty : 0 < size entries) :
    ∃ key entry, lruKey rank entries = some key ∧ entries.lookup key = some entry := by
  unfold lruKey
  cases found :
    ((entries.entries.mergeSort fun left right =>
      decide (rank left.1 ≤ rank right.1)).argmin fun entry => entry.2.lastAccessed) with
  | none =>
    rw [List.argmin_eq_none] at found
    have empty := congrArg List.length found
    rw [List.length_mergeSort, List.length_nil] at empty
    exact absurd empty nonempty.ne'
  | some entry =>
    have walked := List.argmin_mem (Option.mem_def.mpr found)
    rw [List.mem_mergeSort] at walked
    exact ⟨entry.1, entry.2, rfl, AList.mem_lookup_iff.mpr walked⟩

variable {bound : Nat}

theorem evict_of_size_le {rank : String → Nat} {fuel : Nat}
    (small : size entries ≤ bound) : evict rank bound fuel entries = entries := by
  cases fuel with
  | zero => rfl
  | succ => exact if_pos small

theorem size_evict_le (rank : String → Nat) (bound : Nat) :
    ∀ (fuel : Nat) (entries : Dict String CacheEntry),
      size entries ≤ bound + fuel → size (evict rank bound fuel entries) ≤ bound
  | 0, _, fits => fits
  | fuel + 1, entries, fits => by
    unfold evict
    split
    · next within => exact within
    · next full =>
      obtain ⟨key, entry, oldest, found⟩ :=
        exists_lruKey rank (Nat.zero_lt_of_lt (Nat.not_le.mp full))
      rw [oldest]
      have smaller := size_erase_of_lookup found
      exact size_evict_le rank bound fuel (entries.erase key) (by omega)

theorem size_bounded_le (moment : CacheMoment) (bound : Nat) (entries : Dict String CacheEntry) :
    size (bounded moment bound entries) ≤ bound := by
  unfold bounded
  split
  · exact size_evict_le moment.rank bound _ _ (Nat.le_add_left _ bound)
  · next within => exact Nat.not_lt.mp within

/-! ## One operation -/

/-- The capacity is kept, and the entries are within it. -/
def Within (bound : Nat) (store : CacheStore) : Prop :=
  store.maxEntries = bound ∧ size store.entries ≤ bound

/-- The operation puts an entry under a key that has none. -/
def Creates (store : CacheStore) (event : CacheEvent) : Prop :=
  match event.call with
  | .incr key _ ttl =>
    store.poisoned = false ∧
      (∀ entry, store.entries.lookup key = some entry → entry.isExpired event.moment.first = true) ∧
      (expireAtUtc event.moment.second ttl).isSome = true
  | _ => False

/-- An `incr` that creates an entry finds room for it. -/
def HasRoom (store : CacheStore) (event : CacheEvent) : Prop :=
  match event.call with
  | .incr key _ _ => store.Creates event → size (store.entries.erase key) < store.maxEntries
  | _ => True

variable {store : CacheStore}

section

variable (within : store.Within bound) (key : String)

include within

theorem within_locked {operation : CacheOutcome × CacheStore} (kept : operation.2.Within bound) :
    (store.locked operation).2.Within bound := by
  unfold locked
  split
  · exact within
  · exact kept

theorem within_erase :
    (store.withEntries (store.entries.erase key)).Within bound :=
  ⟨within.1, (size_erase_le key store.entries).trans within.2⟩

theorem within_replace {key : String} {entry : CacheEntry}
    (found : store.entries.lookup key = some entry) (new : CacheEntry) :
    (store.withEntries (store.entries.insert key new)).Within bound :=
  ⟨within.1, (size_insert_of_lookup found new).le.trans within.2⟩

theorem within_live (now : Nat) :
    (store.withEntries (live now store.entries)).Within bound :=
  ⟨within.1, (size_retain_le _ store.entries).trans within.2⟩

theorem within_set (value : List UInt8) (valueType : String) (ttl : Int) (moment : CacheMoment) :
    (store.set key value valueType ttl moment).2.Within bound := by
  unfold set
  split
  · exact within
  · refine within_locked within ⟨within.1, ?_⟩
    rw [← within.1]
    exact size_bounded_le moment store.maxEntries _

theorem within_get (moment : CacheMoment) : (store.get key moment).2.Within bound := by
  refine within_locked within ?_
  split
  · exact within
  · next entry found =>
    split
    · exact within_erase within key
    · exact within_replace within found _

theorem within_expire (ttl : Int) (moment : CacheMoment) :
    (store.expire key ttl moment).2.Within bound := by
  refine within_locked within ?_
  split
  · exact within
  · next entry found =>
    split
    · exact within_erase within key
    · split
      · exact within
      · exact within_replace within found _

theorem within_ttl (moment : CacheMoment) : (store.ttl key moment).2.Within bound := by
  refine within_locked within ?_
  split
  · exact within
  · split
    · exact within_erase within key
    · exact within

end

theorem exists_store (key : String) (moment : CacheMoment) (store : CacheStore) :
    (store.exists key moment).2 = (store.ttl key moment).2 := by
  unfold «exists»
  split
  · next left after asked => rw [asked]
  · rfl

theorem within_incrVacant_iff (within : store.Within bound) {key : String}
    (vacant : store.entries.lookup key = none) (delta ttl : Int) (moment : CacheMoment) :
    (store.incrVacant key delta ttl moment).2.Within bound ↔
      ((expireAtUtc moment.second ttl).isSome = true → size store.entries < bound) := by
  unfold incrVacant
  split
  · next panics =>
    rw [panics]
    exact iff_of_true within nofun
  · next expireAt computed =>
    have untouched : store.entries.erase key = store.entries := erase_of_lookup_eq_none vacant
    have counted : size (store.entries.insert key
        ⟨integerBytes delta, "long", expireAt, moment.third⟩) = size store.entries + 1 := by
      rw [size_insert, untouched]
    rw [computed]
    constructor
    · intro kept _
      have bound := kept.2
      rw [withEntries, counted] at bound
      exact bound
    · intro room
      refine ⟨within.1, ?_⟩
      rw [withEntries, counted]
      exact room rfl

theorem within_incr_iff (within : store.Within bound) (key : String) (delta ttl : Int)
    (moment : CacheMoment) :
    (store.incr key delta ttl moment).2.Within bound ↔
      store.HasRoom ⟨.incr key delta ttl, moment⟩ := by
  unfold HasRoom Creates incr locked
  dsimp only
  cases held : store.poisoned with
  | true => simpa using within
  | false =>
    rw [if_neg Bool.false_ne_true]
    cases found : store.entries.lookup key with
    | none =>
      dsimp only
      rw [within_incrVacant_iff within found, erase_of_lookup_eq_none found, within.1]
      simp
    | some entry =>
      dsimp only
      by_cases expired : entry.isExpired moment.first = true
      · have erased : (store.withEntries (store.entries.erase key)).Within bound :=
          within_erase within key
        rw [if_pos expired,
          within_incrVacant_iff erased (AList.lookup_erase key store.entries), within.1]
        simp [expired, withEntries]
      · rw [if_neg expired]
        refine iff_of_true ?_ fun creates => ?_
        · unfold incrOccupied
          split
          · exact within
          · exact within_replace within found _
        · exact absurd (creates.2.1 entry rfl) expired

/-- An operation on a cache within its bound stays within it exactly when it has
room for what it creates. -/
theorem within_perform_iff (within : store.Within bound) (event : CacheEvent) :
    (store.perform event).2.Within bound ↔ store.HasRoom event := by
  obtain ⟨call, moment⟩ := event
  cases call with
  | incr key delta ttl => exact within_incr_iff within key delta ttl moment
  | set key value valueType ttl =>
    exact iff_of_true (within_set within key value valueType ttl moment) trivial
  | get key => exact iff_of_true (within_get within key moment) trivial
  | delete key => exact iff_of_true (within_locked within (within_erase within key)) trivial
  | expire key ttl => exact iff_of_true (within_expire within key ttl moment) trivial
  | ttl key => exact iff_of_true (within_ttl within key moment) trivial
  | «exists» key =>
    refine iff_of_true ?_ trivial
    rw [perform, exists_store]
    exact within_ttl within key moment
  | purgeExpired | entries =>
    exact iff_of_true (within_locked within (within_live within moment.first)) trivial

/-! ## Whole runs -/

/-- The cache stays within `max(max_entries, 1)` entries throughout a run exactly
when each `incr` that creates an entry has room for it. -/
theorem cacheSize_bounded_iff (maxEntries : Nat) (events : List CacheEvent) :
    Throughout step (Within (max maxEntries 1)) (new maxEntries) events ↔
      Along step HasRoom (new maxEntries) events := by
  have reached : ∃ final, run step (new maxEntries) events = some final := by
    generalize new maxEntries = store
    induction events generalizing store with
    | nil => exact ⟨store, rfl⟩
    | cons event _ ih => exact ih (store.perform event).2
  obtain ⟨final, ran⟩ := reached
  refine throughout_iff_along ?_ ⟨rfl, Nat.zero_le _⟩ ran
  intro store after event within stepped
  rw [← Option.some.inj stepped]
  exact within_perform_iff within event

/-- Two counters under different keys are two entries, whatever the bound. -/
theorem cacheSize_exceeded :
    let moment : CacheMoment := ⟨0, 0, 0, fun _ => 0⟩
    let events : List CacheEvent := [⟨.incr "a" 1 0, moment⟩, ⟨.incr "b" 1 0, moment⟩]
    ∃ final, run step (new 1) events = some final ∧
      final.maxEntries = 1 ∧ size final.entries = 2 := by
  refine ⟨_, rfl, ?_⟩
  decide +kernel

end CacheStore

end CanglingBroker
