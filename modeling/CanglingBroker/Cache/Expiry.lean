import CanglingBroker.Cache.Panics

/-!
# Expiry as clients see it

The reference store has no expired entries: each is removed at the instant it
expires.  The cache keeps expired entries until an operation happens on them, and
must hide them until then.  `Agrees` says that at an instant both show the same
entries; every operation keeps it, and what remains is to compare the answers.
-/

namespace CanglingBroker

open Foundation
open Dict
  (size retain lookup_erase lookup_insert lookup_retain size_le_of_lookup rows byKey byKey_rows_eq)

/-! ## The reference store -/

/-- What a client can see of an entry. -/
structure CacheRecord where
  value : List UInt8
  valueType : String
  deadline : Option Nat
  deriving DecidableEq, Repr

/-- The instant has come at which the record is removed. -/
def CacheRecord.isOver (record : CacheRecord) (now : Nat) : Bool :=
  record.deadline.any fun deadline => decide (deadline ≤ now)

/-- A store that removes each entry at the instant it expires. -/
abbrev ReferenceCache : Type := Dict String CacheRecord

namespace ReferenceCache

def asOf (now : Nat) (records : ReferenceCache) : ReferenceCache :=
  retain (fun _ record => !record.isOver now) records

/-- The rows of `entries`, by key. -/
def listing (now : Nat) (records : ReferenceCache) :
    List (String × List UInt8 × String × Int) :=
  byKey (rows (fun record : CacheRecord =>
    (record.value, record.valueType, CacheStore.secondsLeft now record.deadline)) records)

def set (key : String) (value : List UInt8) (valueType : String) (ttl : Int)
    (moment : CacheMoment) (records : ReferenceCache) : CacheOutcome × ReferenceCache :=
  match expireAtUtc moment.first ttl with
  | none => (.panicked, records)
  | some deadline => (.stored, records.insert key ⟨value, normalizeValueType valueType, deadline⟩)

/-- `INCRBY`, which creates a missing key. -/
def incr (key : String) (delta ttl : Int) (moment : CacheMoment)
    (records : ReferenceCache) : CacheOutcome × ReferenceCache :=
  match records.lookup key with
  | some record =>
    match parseI64 record.value with
    | none => (.notANumber ("cache value is not a number for key " ++ key), records)
    | some current =>
      (.number (wrappingAdd current delta),
        records.insert key
          { record with
            value := integerBytes (wrappingAdd current delta)
            valueType := "long" })
  | none =>
    match expireAtUtc moment.second ttl with
    | none => (.panicked, records)
    | some deadline => (.number delta, records.insert key ⟨integerBytes delta, "long", deadline⟩)

def expire (key : String) (ttl : Int) (moment : CacheMoment) (records : ReferenceCache) :
    CacheOutcome × ReferenceCache :=
  match records.lookup key with
  | none => (.flag false, records)
  | some record =>
    match expireAtUtc moment.second ttl with
    | none => (.panicked, records)
    | some deadline => (.flag true, records.insert key { record with deadline := deadline })

def ttl (key : String) (moment : CacheMoment) (records : ReferenceCache) : Int :=
  match records.lookup key with
  | none => -2
  | some record => CacheStore.secondsLeft moment.second record.deadline

/-- One operation on the store as it is at the operation's first instant. -/
def perform (records : ReferenceCache) (event : CacheEvent) :
    CacheOutcome × ReferenceCache :=
  let current := asOf event.moment.first records
  match event.call with
  | .set key value valueType ttl => set key value valueType ttl event.moment current
  | .get key =>
    (.found ((current.lookup key).map fun record => (record.value, record.valueType)), current)
  | .delete key => (.flag (current.lookup key).isSome, current.erase key)
  | .incr key delta ttl => incr key delta ttl event.moment current
  | .expire key ttl => expire key ttl event.moment current
  | .ttl key => (.number (ttl key event.moment current), current)
  | .exists key => (.flag (current.lookup key).isSome, current)
  | .purgeExpired => (.count 0, current)
  | .entries => (.listing (listing event.moment.first current), current)

def answers : ReferenceCache → List CacheEvent → List CacheOutcome
  | _, [] => []
  | records, event :: later => (perform records event).1 :: answers (perform records event).2 later

def NeverExceeds (bound : Nat) : ReferenceCache → List CacheEvent → Prop
  | _, [] => True
  | records, event :: later =>
    size (perform records event).2 ≤ bound ∧ NeverExceeds bound (perform records event).2 later

end ReferenceCache

/-! ## The same entries -/

def CacheEntry.record (entry : CacheEntry) : CacheRecord :=
  ⟨entry.value, entry.valueType, entry.expireAt⟩

theorem CacheEntry.isOver_record (entry : CacheEntry) (now : Nat) :
    entry.record.isOver now = entry.isExpired now :=
  rfl

def shown (now : Nat) (entries : Dict String CacheEntry) (key : String) :
    Option CacheRecord :=
  ((entries.lookup key).map CacheEntry.record).filter fun record => !record.isOver now

section Shown

variable {now : Nat} {entries : Dict String CacheEntry} {key : String} {entry : CacheEntry}

theorem shown_of_missing (missing : entries.lookup key = none) : shown now entries key = none := by
  rw [shown, missing]
  rfl

theorem shown_of_expired (found : entries.lookup key = some entry)
    (expired : entry.isExpired now = true) :
    shown now entries key = none := by
  rw [shown, found, Option.map_some, Option.filter_some, CacheEntry.isOver_record, expired]
  rfl

theorem shown_of_live (found : entries.lookup key = some entry)
    (fresh : ¬ entry.isExpired now = true) :
    shown now entries key = some entry.record := by
  rw [shown, found, Option.map_some, Option.filter_some, CacheEntry.isOver_record,
    Bool.eq_false_iff.mpr fresh]
  rfl

end Shown

def Agrees (now : Nat) (entries : Dict String CacheEntry) (records : ReferenceCache) :
    Prop :=
  ∀ key, shown now entries key = (records.lookup key).filter fun record => !record.isOver now

namespace Agrees

variable {now later : Nat} {entries : Dict String CacheEntry} {records : ReferenceCache}
  {key : String} {entry : CacheEntry}

theorem filter_later (passes : now ≤ later) (found : Option CacheRecord) :
    (found.filter fun record => !record.isOver now).filter (fun record => !record.isOver later) =
      found.filter fun record => !record.isOver later := by
  cases found with
  | none => rfl
  | some record =>
    have stays : record.isOver now = true → record.isOver later = true := by
      unfold CacheRecord.isOver
      cases record.deadline with
      | none => nofun
      | some =>
        intro expired
        exact decide_eq_true ((of_decide_eq_true expired).trans passes)
    cases early : record.isOver now with
    | false => rw [Option.filter_some, early]; rfl
    | true => rw [Option.filter_some, Option.filter_some, early, stays early]; rfl

section

variable (agrees : Agrees now entries records)

include agrees

theorem mono (passes : now ≤ later) :
    Agrees later entries records := by
  intro key
  rw [shown, ← filter_later passes, ← filter_later passes (records.lookup key), ← agrees key]
  rfl

theorem asOf :
    Agrees now entries (ReferenceCache.asOf now records) := by
  intro key
  rw [ReferenceCache.asOf, lookup_retain, filter_later (Nat.le_refl now)]
  exact agrees key

theorem lookup_asOf (key : String) :
    (ReferenceCache.asOf now records).lookup key = shown now entries key := by
  rw [ReferenceCache.asOf, lookup_retain]
  exact (agrees key).symm

theorem insert (key : String) (entry : CacheEntry) :
    Agrees now (entries.insert key entry) (records.insert key entry.record) := by
  intro other
  rw [shown, lookup_insert, lookup_insert]
  split
  · rfl
  · exact agrees other

theorem erase (key : String) :
    Agrees now (entries.erase key) (records.erase key) := by
  intro other
  rw [shown, lookup_erase, lookup_erase]
  split
  · rfl
  · exact agrees other

theorem forget (found : entries.lookup key = some entry)
    (expired : entry.isExpired now = true) : Agrees now (entries.erase key) records := by
  intro other
  rw [← agrees other, shown, shown, lookup_erase]
  split
  · next same =>
    rw [same]
    exact (shown_of_expired found expired).symm
  · rfl

theorem touch (found : entries.lookup key = some entry)
    {new : CacheEntry} (same : new.record = entry.record) :
    Agrees now (entries.insert key new) records := by
  intro other
  rw [← agrees other, shown, shown, lookup_insert]
  split
  · next sameKey =>
    rw [sameKey, found, Option.map_some, Option.map_some, same]
  · rfl

theorem live :
    Agrees now (CacheStore.live now entries) records := by
  intro key
  rw [← agrees key, shown, shown, CacheStore.live, lookup_retain]
  cases entries.lookup key with
  | none => rfl
  | some =>
    rw [Option.filter_some]
    split
    · rfl
    · next expired =>
      rw [Option.map_none, Option.map_some, Option.filter_none, Option.filter_some]
      exact (if_neg expired).symm

theorem size_live_le :
    size (CacheStore.live now entries) ≤ size records := by
  refine size_le_of_lookup fun key visible => ?_
  obtain ⟨entry, found⟩ := Option.isSome_iff_exists.mp visible
  rw [CacheStore.live, lookup_retain, Option.filter_eq_some_iff] at found
  have fresh : ¬ entry.isExpired now = true :=
    Bool.eq_false_iff.mp ((Bool.not_eq_true' _).mp found.2)
  have kept := (agrees key).symm.trans (shown_of_live found.1 fresh)
  rw [(Option.filter_eq_some_iff.mp kept).1]
  rfl

end

/-- Making room for an insertion drops nothing that a client can see, unless the
reference store has too many entries as well. -/
theorem bounded {moment : CacheMoment} {bound : Nat}
    (agrees : Agrees moment.third entries records) (fits : size records ≤ bound) :
    Agrees moment.third (CacheStore.bounded moment bound entries) records := by
  unfold CacheStore.bounded
  split
  · have small : size (CacheStore.live moment.third entries) ≤ bound :=
      agrees.size_live_le.trans fits
    rw [CacheStore.evict_of_size_le small]
    exact agrees.live
  · exact agrees

end Agrees

/-! ## One operation -/

/-- The operation's instants are in order, and follow the one before. -/
def CacheMoment.Follows (moment : CacheMoment) (now : Nat) : Prop :=
  now ≤ moment.first ∧ moment.first ≤ moment.second ∧ moment.second ≤ moment.third

/-- The operation's time to live has an expiry that can be expressed. -/
def CacheEvent.Fits (event : CacheEvent) : Prop :=
  match event.call with
  | .set _ _ _ ttl => TtlFits event.moment.first ttl
  | .incr _ _ ttl => TtlFits event.moment.second ttl
  | .expire _ ttl => TtlFits event.moment.second ttl
  | _ => True

/-- No expired entry is stored where the operation would report it. -/
def CacheStore.Unreported (store : CacheStore) (event : CacheEvent) : Prop :=
  match event.call with
  | .delete key =>
    ∀ entry, store.entries.lookup key = some entry → entry.isExpired event.moment.first = false
  | .purgeExpired =>
    ∀ key entry, store.entries.lookup key = some entry → entry.isExpired event.moment.first = false
  | _ => True

/-- The cache follows the reference store through an operation; the answers are the
same under the condition. -/
structure Simulates (now bound : Nat) (same : Prop) (ours : CacheOutcome × CacheStore)
    (theirs : CacheOutcome × ReferenceCache) : Prop where
  answer : ours.1 = theirs.1 ↔ same
  sane : ours.2.poisoned = false
  kept : ours.2.maxEntries = bound
  agrees : Agrees now ours.2.entries theirs.2

namespace CacheStore

variable {store : CacheStore} {records : ReferenceCache} {moment : CacheMoment}
  {key : String} {now : Nat}

theorem simulates_of_eq {ours : CacheOutcome × CacheStore} {theirs : CacheOutcome × ReferenceCache}
    (same : ours.1 = theirs.1) (sane : ours.2.poisoned = false)
    (kept : ours.2.maxEntries = store.maxEntries) (agrees : Agrees now ours.2.entries theirs.2) :
    Simulates now store.maxEntries True ours theirs :=
  ⟨iff_of_true same trivial, sane, kept, agrees⟩

theorem simulates_incrVacant (store : CacheStore) {delta ttl : Int}
    (sane : store.poisoned = false) (timely : moment.Follows moment.first)
    (agrees : Agrees moment.first store.entries records) (missing : records.lookup key = none)
    (fits : TtlFits moment.second ttl) :
    Simulates moment.third store.maxEntries True (incrVacant key delta ttl moment store)
      (ReferenceCache.incr key delta ttl moment records) := by
  obtain ⟨deadline, computed⟩ := Option.isSome_iff_exists.mp (expireAtUtc_isSome_iff.mpr fits)
  rw [ReferenceCache.incr, incrVacant, missing, computed]
  exact simulates_of_eq rfl sane rfl
    (Agrees.mono (agrees.insert key _) (timely.2.1.trans timely.2.2))

theorem secondsLeft_ne (now : Nat) (deadline : Option Nat) : secondsLeft now deadline ≠ -2 := by
  cases deadline with
  | none => exact Int.ne_of_gt (by decide : (-2 : Int) < -1)
  | some deadline =>
    have nonnegative : (0 : Int) ≤ secondsLeft now (some deadline) := Int.natCast_nonneg _
    omega

/-- Purging removes nothing when nothing has expired, and only then. -/
theorem size_live_eq_iff (now : Nat) (entries : Dict String CacheEntry) :
    size entries - size (live now entries) = 0 ↔
      ∀ key entry, entries.lookup key = some entry → entry.isExpired now = false := by
  rw [Nat.sub_eq_zero_iff_le]
  have kept : size entries ≤ size (live now entries) ↔
      ∀ stored ∈ entries.entries, stored.2.isExpired now = false := by
    have shorter := List.length_filter_le
      (fun stored : (_ : String) × CacheEntry => !stored.2.isExpired now) entries.entries
    refine ⟨fun large => ?_, fun fresh => ?_⟩
    · intro stored member
      have whole := List.length_filter_eq_length_iff.mp (Nat.le_antisymm shorter large)
      exact (Bool.not_eq_true' _).mp (whole stored member)
    · refine Nat.le_of_eq (Eq.symm (List.length_filter_eq_length_iff.mpr ?_))
      intro stored member
      exact (Bool.not_eq_true' _).mpr (fresh stored member)
  rw [kept]
  constructor
  · intro fresh key entry found
    exact fresh ⟨key, entry⟩ (AList.mem_lookup_iff.mp found)
  · intro fresh stored member
    exact fresh stored.1 stored.2 (AList.mem_lookup_iff.mpr member)

theorem listing_eq {entries : Dict String CacheEntry}
    (visible : ∀ key, records.lookup key = shown now entries key) :
    listing now (live now entries) = ReferenceCache.listing now records := by
  have listed : listing now (live now entries) = byKey (rows (fun entry : CacheEntry =>
      (entry.value, entry.valueType, secondsLeft now entry.expireAt)) (live now entries)) :=
    rfl
  rw [listed]
  refine byKey_rows_eq fun key => ?_
  rw [visible key, shown, live, lookup_retain]
  cases entries.lookup key with
  | none => rfl
  | some entry =>
    rw [Option.map_some, Option.filter_some, Option.filter_some, CacheEntry.isOver_record]
    cases entry.isExpired now with
    | false => rfl
    | true => rfl

section Each

variable (sane : store.poisoned = false) (timely : moment.Follows moment.first)
  (agrees : Agrees moment.first store.entries records)

include sane timely agrees

theorem simulates_set {value : List UInt8} {valueType : String} {ttl : Int}
    (fits : TtlFits moment.first ttl)
    (room : size (ReferenceCache.set key value valueType ttl moment records).2 ≤ store.maxEntries) :
    Simulates moment.third store.maxEntries True
      (store.set key value valueType ttl moment)
      (ReferenceCache.set key value valueType ttl moment records) := by
  obtain ⟨deadline, computed⟩ := Option.isSome_iff_exists.mp (expireAtUtc_isSome_iff.mpr fits)
  unfold ReferenceCache.set at room ⊢
  unfold set
  rw [computed] at room ⊢
  simp only [locked_eq sane]
  refine simulates_of_eq rfl sane rfl (Agrees.bounded ?_ room)
  exact Agrees.mono (agrees.insert key _) (timely.2.1.trans timely.2.2)

section

variable (visible : records.lookup key = shown moment.first store.entries key)

include visible

theorem simulates_get :
    Simulates moment.third store.maxEntries True (store.get key moment)
      (.found ((records.lookup key).map fun record => (record.value, record.valueType)),
        records) := by
  have later := timely.2.1.trans timely.2.2
  rw [get, locked_eq sane, visible]
  cases found : store.entries.lookup key with
  | none =>
    rw [shown_of_missing found]
    exact simulates_of_eq rfl sane rfl (agrees.mono later)
  | some entry =>
    by_cases expired : entry.isExpired moment.first = true
    · simp only [if_pos expired, shown_of_expired found expired]
      exact simulates_of_eq rfl sane rfl ((agrees.forget found expired).mono later)
    · simp only [if_neg expired, shown_of_live found expired]
      refine simulates_of_eq rfl sane rfl (Agrees.mono (agrees.touch found ?_) later)
      rfl

theorem simulates_delete :
    Simulates moment.third store.maxEntries
      (∀ entry, store.entries.lookup key = some entry → entry.isExpired moment.first = false)
      (store.delete key) (.flag (records.lookup key).isSome, records.erase key) := by
  have deleted : store.delete key =
      (.flag (store.entries.lookup key).isSome, store.withEntries (store.entries.erase key)) := by
    unfold delete
    rw [locked_eq sane]
  rw [deleted, visible]
  refine ⟨?_, sane, rfl, (agrees.erase key).mono (timely.2.1.trans timely.2.2)⟩
  cases found : store.entries.lookup key with
  | none =>
    rw [shown_of_missing found]
    exact iff_of_true rfl nofun
  | some entry =>
    by_cases expired : entry.isExpired moment.first = true
    · rw [shown_of_expired found expired]
      exact iff_of_false nofun fun unexpired =>
        Bool.false_ne_true ((unexpired entry rfl).symm.trans expired)
    · rw [shown_of_live found expired]
      exact iff_of_true rfl fun other same => Option.some.inj same ▸ Bool.eq_false_iff.mpr expired

theorem simulates_incr {delta ttl : Int}
    (fits : TtlFits moment.second ttl) :
    Simulates moment.third store.maxEntries True (store.incr key delta ttl moment)
      (ReferenceCache.incr key delta ttl moment records) := by
  rw [incr, locked_eq sane]
  cases found : store.entries.lookup key with
  | none =>
    exact simulates_incrVacant store sane timely agrees
      (visible.trans (shown_of_missing found)) fits
  | some entry =>
    by_cases expired : entry.isExpired moment.first = true
    · simp only [if_pos expired]
      exact simulates_incrVacant (store.withEntries (store.entries.erase key)) sane
        timely (agrees.forget found expired)
        (visible.trans (shown_of_expired found expired)) fits
    · simp only [if_neg expired]
      rw [ReferenceCache.incr, incrOccupied, visible, shown_of_live found expired]
      have later := timely.2.1.trans timely.2.2
      cases parsed : parseI64 entry.value with
      | none =>
        simp only [CacheEntry.record, parsed]
        exact simulates_of_eq rfl sane rfl (agrees.mono later)
      | some =>
        simp only [CacheEntry.record, parsed]
        exact simulates_of_eq rfl sane rfl (Agrees.mono (agrees.insert key _) later)

theorem simulates_expire {ttl : Int}
    (fits : TtlFits moment.second ttl) :
    Simulates moment.third store.maxEntries True (store.expire key ttl moment)
      (ReferenceCache.expire key ttl moment records) := by
  have later := timely.2.1.trans timely.2.2
  obtain ⟨deadline, computed⟩ := Option.isSome_iff_exists.mp (expireAtUtc_isSome_iff.mpr fits)
  rw [expire, locked_eq sane, ReferenceCache.expire, visible]
  cases found : store.entries.lookup key with
  | none =>
    rw [shown_of_missing found]
    exact simulates_of_eq rfl sane rfl (agrees.mono later)
  | some entry =>
    by_cases expired : entry.isExpired moment.first = true
    · simp only [if_pos expired, shown_of_expired found expired]
      exact simulates_of_eq rfl sane rfl ((agrees.forget found expired).mono later)
    · simp only [if_neg expired, shown_of_live found expired, computed]
      exact simulates_of_eq rfl sane rfl (Agrees.mono (agrees.insert key _) later)

theorem simulates_ttl :
    Simulates moment.third store.maxEntries True (store.ttl key moment)
      (.number (ReferenceCache.ttl key moment records), records) := by
  have later := timely.2.1.trans timely.2.2
  rw [ttl, locked_eq sane, ReferenceCache.ttl, visible]
  cases found : store.entries.lookup key with
  | none =>
    rw [shown_of_missing found]
    exact simulates_of_eq rfl sane rfl (agrees.mono later)
  | some entry =>
    by_cases expired : entry.isExpired moment.first = true
    · simp only [if_pos expired, shown_of_expired found expired]
      exact simulates_of_eq rfl sane rfl ((agrees.forget found expired).mono later)
    · simp only [if_neg expired, shown_of_live found expired]
      exact simulates_of_eq rfl sane rfl (agrees.mono later)

theorem simulates_exists :
    Simulates moment.third store.maxEntries True (store.exists key moment)
      (.flag (records.lookup key).isSome, records) := by
  have asked := simulates_ttl sane timely agrees visible
  have left : (store.ttl key moment).1 = .number (ReferenceCache.ttl key moment records) :=
    asked.answer.mpr trivial
  have missing : ReferenceCache.ttl key moment records ≠ -2 ↔
      (records.lookup key).isSome = true := by
    unfold ReferenceCache.ttl
    cases records.lookup key with
    | none => exact iff_of_false (fun different => different rfl) nofun
    | some => exact iff_of_true (secondsLeft_ne _ _) rfl
  have flagged :
      store.exists key moment = (.flag (records.lookup key).isSome, (store.ttl key moment).2) := by
    unfold «exists»
    rw [← Prod.mk.eta (p := store.ttl key moment), left]
    simp only [missing]
    rw [Bool.decide_eq_true]
  rw [flagged]
  exact simulates_of_eq rfl asked.sane asked.kept asked.agrees

end

theorem simulates_purgeExpired :
    Simulates moment.third store.maxEntries
      (∀ key entry, store.entries.lookup key = some entry → entry.isExpired moment.first = false)
      (store.purgeExpired moment) (.count 0, records) := by
  unfold purgeExpired
  rw [locked_eq sane]
  refine ⟨?_, sane, rfl, agrees.live.mono (timely.2.1.trans timely.2.2)⟩
  rw [← size_live_eq_iff]
  exact iff_of_eq (CacheOutcome.count.injEq _ 0)

theorem simulates_entries
    (visible : ∀ key, records.lookup key = shown moment.first store.entries key) :
    Simulates moment.third store.maxEntries True (store.snapshot moment)
      (.listing (ReferenceCache.listing moment.first records), records) := by
  unfold snapshot
  rw [locked_eq sane]
  exact simulates_of_eq (congrArg _ (listing_eq visible)) sane rfl
    (agrees.live.mono (timely.2.1.trans timely.2.2))

end Each

theorem simulates_perform {event : CacheEvent} (sane : store.poisoned = false)
    (timely : event.moment.Follows now) (agrees : Agrees now store.entries records)
    (fits : event.Fits) (room : size (ReferenceCache.perform records event).2 ≤ store.maxEntries) :
    Simulates event.moment.third store.maxEntries (store.Unreported event)
      (store.perform event) (ReferenceCache.perform records event) := by
  obtain ⟨call, moment⟩ := event
  have inOrder : moment.Follows moment.first := ⟨Nat.le_refl _, timely.2⟩
  have current : Agrees moment.first store.entries records := agrees.mono timely.1
  have visible := current.lookup_asOf
  cases call with
  | set => exact simulates_set sane inOrder current.asOf fits room
  | get key => exact simulates_get sane inOrder current.asOf (visible key)
  | delete key => exact simulates_delete sane inOrder current.asOf (visible key)
  | incr key => exact simulates_incr sane inOrder current.asOf (visible key) fits
  | expire key => exact simulates_expire sane inOrder current.asOf (visible key) fits
  | ttl key => exact simulates_ttl sane inOrder current.asOf (visible key)
  | «exists» key => exact simulates_exists sane inOrder current.asOf (visible key)
  | purgeExpired => exact simulates_purgeExpired sane inOrder current.asOf
  | entries => exact simulates_entries sane inOrder current.asOf visible

end CacheStore

/-! ## Runs -/

def Timely : Nat → List CacheEvent → Prop
  | _, [] => True
  | now, event :: later => event.moment.Follows now ∧ Timely event.moment.third later

namespace CacheStore

/-- The answers of a run are those of the reference store as long as no operation
reports an expired entry. -/
theorem answers_eq_iff {events : List CacheEvent} {now : Nat} {store : CacheStore}
    {records : ReferenceCache} (sane : store.poisoned = false)
    (agrees : Agrees now store.entries records) (timely : Timely now events)
    (fits : ∀ event ∈ events, event.Fits) (room : records.NeverExceeds store.maxEntries events) :
    store.answers events = records.answers events ↔ Along step Unreported store events := by
  induction events generalizing now store records with
  | nil => exact iff_of_true rfl trivial
  | cons event _ ih =>
    have simulated := simulates_perform sane timely.1 agrees (fits event (.head _)) room.1
    rw [answers, ReferenceCache.answers, List.cons.injEq, simulated.answer]
    refine and_congr_right fun _ => ?_
    have rest :=
      ih simulated.sane simulated.agrees timely.2
        (fun other member => fits other (List.mem_cons_of_mem event member))
        (simulated.kept.symm ▸ room.2)
    rw [rest]
    constructor
    · intro unreported reached stepped
      cases stepped
      exact unreported
    · intro unreported
      exact unreported _ rfl

/-- Expired entries that are still stored show in no answer but those of `delete` and
`purge_expired`. -/
theorem lazyExpiry_unobservable_iff (maxEntries : Nat) (events : List CacheEvent)
    (timely : Timely 0 events) (fits : ∀ event ∈ events, event.Fits)
    (room : ReferenceCache.NeverExceeds (new maxEntries).maxEntries ∅ events) :
    (new maxEntries).answers events = ReferenceCache.answers ∅ events ↔
      Along step Unreported (new maxEntries) events :=
  answers_eq_iff rfl (fun _ => rfl) timely fits room

/-- An operation all of whose readings are of one instant. -/
def atInstant (call : CacheCall) (now : Nat) : CacheEvent :=
  ⟨call, { first := now, second := now, third := now }⟩

/-- A key is stored for one second, and an operation follows after two. -/
def afterExpiry (call : CacheCall) : List CacheEvent :=
  [atInstant (.set "k" [1] "" 1) 0, atInstant call (2 * nanosPerSecond)]

theorem timely_afterExpiry (call : CacheCall) : Timely 0 (afterExpiry call) :=
  ⟨⟨Nat.le_refl _, Nat.le_refl _, Nat.le_refl _⟩,
    ⟨Nat.zero_le _, Nat.le_refl _, Nat.le_refl _⟩, trivial⟩

theorem fits_afterExpiry {call : CacheCall} (untimed : ∀ now, (atInstant call now).Fits) :
    ∀ event ∈ afterExpiry call, event.Fits := by
  intro event member
  rcases List.mem_pair.mp member with same | same <;> rw [same]
  · exact .inr ⟨by decide, by decide⟩
  · exact untimed _

/-- The entry does not show when it is read after its expiry. -/
theorem lazyExpiry_unobservable_get : (new 8).answers (afterExpiry (.get "k")) =
    ReferenceCache.answers ∅ (afterExpiry (.get "k")) ↔
      Along step Unreported (new 8) (afterExpiry (.get "k")) :=
  lazyExpiry_unobservable_iff 8 (afterExpiry (.get "k")) (timely_afterExpiry _)
    (fits_afterExpiry fun _ => trivial) ⟨by decide +kernel, by decide +kernel, trivial⟩

/-- The entry is deleted after its expiry: the cache says that it was there. -/
theorem lazyExpiry_observed_delete : Timely 0 (afterExpiry (.delete "k")) ∧
    (∀ event ∈ afterExpiry (.delete "k"), event.Fits) ∧
    ReferenceCache.NeverExceeds (new 8).maxEntries ∅ (afterExpiry (.delete "k")) ∧
    (new 8).answers (afterExpiry (.delete "k")) = [.stored, .flag true] ∧
    ReferenceCache.answers ∅ (afterExpiry (.delete "k")) = [.stored, .flag false] :=
  ⟨timely_afterExpiry _, fits_afterExpiry fun _ => trivial,
    ⟨by decide +kernel, by decide +kernel, trivial⟩, by decide +kernel, by decide +kernel⟩

end CacheStore

end CanglingBroker
