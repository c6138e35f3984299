import CanglingBroker.Cache.Size
import CanglingBroker.Lock.Exclusion

/-!
# Times to live that cannot be expressed

An expiry is the sum of the clock and the time to live.  Where it cannot be
expressed the sum panics: in `set` before the mutex is taken, in `incr` and `expire`
while it is held, and in the lock service between two statements.
-/

namespace CanglingBroker

open Foundation

/-- The sum of the instant and the time to live can be expressed, or is not
needed. -/
def TtlFits (now : Nat) (ttl : Int) : Prop :=
  ttl ≤ 0 ∨ (ttl ≤ (2 ^ 63 - 1) / 1000 ∧ now + ttl.toNat * nanosPerSecond ≤ lastInstant)

variable {ttl : Int} {now : Nat}

theorem expiry_isSome_iff (positive : 0 < ttl) :
    (expiry now ttl).isSome = true ↔ TtlFits now ttl := by
  unfold expiry TtlFits
  by_cases long : (2 ^ 63 - 1) / 1000 < ttl
  · rw [if_pos long]
    refine iff_of_false nofun ?_
    rintro (nonpositive | ⟨short, _⟩)
    · exact absurd positive (Int.not_lt.mpr nonpositive)
    · exact absurd long (Int.not_lt.mpr short)
  · rw [if_neg long]
    by_cases late : lastInstant < now + ttl.toNat * nanosPerSecond
    · rw [if_pos late]
      refine iff_of_false nofun ?_
      rintro (nonpositive | ⟨_, early⟩)
      · exact absurd positive (Int.not_lt.mpr nonpositive)
      · exact absurd late (Nat.not_lt.mpr early)
    · rw [if_neg late]
      exact iff_of_true rfl (.inr ⟨Int.not_lt.mp long, Nat.not_lt.mp late⟩)

theorem expireAtUtc_isSome_iff :
    (expireAtUtc now ttl).isSome = true ↔ TtlFits now ttl := by
  unfold expireAtUtc
  split
  · next nonpositive => exact iff_of_true rfl (.inl nonpositive)
  · next positive =>
    rw [Option.isSome_map]
    exact expiry_isSome_iff (Int.not_le.mp positive)

theorem expireAtUtc_eq_none_iff :
    expireAtUtc now ttl = none ↔ ¬ TtlFits now ttl := by
  rw [← expireAtUtc_isSome_iff, Option.not_isSome_iff_eq_none]

namespace CacheStore

/-! ## The cache -/

def HasLive (store : CacheStore) (key : String) (now : Nat) : Prop :=
  ∃ entry, store.entries.lookup key = some entry ∧ entry.isExpired now = false

/-- The expiry the operation computes can be expressed. -/
def Representable (store : CacheStore) (event : CacheEvent) : Prop :=
  match event.call with
  | .set _ _ _ ttl => TtlFits event.moment.first ttl
  | .incr key _ ttl => ¬ store.HasLive key event.moment.first → TtlFits event.moment.second ttl
  | .expire key ttl => store.HasLive key event.moment.first → TtlFits event.moment.second ttl
  | _ => True

/-- The operation returns a result, and the mutex is not poisoned. -/
def Returns (result : CacheOutcome × CacheStore) : Prop :=
  result.1 ≠ .panicked ∧ result.2.poisoned = false

def Panics (result : CacheOutcome × CacheStore) : Prop :=
  result.1 = .panicked

variable {store : CacheStore}

theorem locked_eq (sane : store.poisoned = false) (operation : CacheOutcome × CacheStore) :
    store.locked operation = operation := by
  unfold locked
  rw [sane, if_neg Bool.false_ne_true]

/-- An operation either returns, as its expiry can be expressed, or panics, as it
cannot. -/
def Answers (result : CacheOutcome × CacheStore) (representable : Prop) : Prop :=
  (representable ∧ Returns result) ∨ (¬ representable ∧ Panics result)

section

variable (sane : store.poisoned = false) (key : String)

include sane key

theorem answers_set (value : List UInt8)
    (valueType : String) (ttl : Int) (moment : CacheMoment) :
    Answers (store.set key value valueType ttl moment) (TtlFits moment.first ttl) := by
  unfold set
  split
  · next none => exact .inr ⟨expireAtUtc_eq_none_iff.mp none, rfl⟩
  · next expireAt computed =>
    refine .inl ⟨expireAtUtc_isSome_iff.mp (by rw [computed]; rfl), ?_⟩
    rw [locked_eq sane]
    exact ⟨nofun, sane⟩

theorem answers_incrVacant (delta ttl : Int)
    (moment : CacheMoment) :
    Answers (store.incrVacant key delta ttl moment) (TtlFits moment.second ttl) := by
  unfold incrVacant
  split
  · next none => exact .inr ⟨expireAtUtc_eq_none_iff.mp none, rfl⟩
  · next expireAt computed =>
    exact .inl ⟨expireAtUtc_isSome_iff.mp (by rw [computed]; rfl), nofun, sane⟩

theorem answers_incr (delta ttl : Int)
    (moment : CacheMoment) :
    Answers (store.incr key delta ttl moment)
      (¬ store.HasLive key moment.first → TtlFits moment.second ttl) := by
  unfold incr
  rw [locked_eq sane]
  cases found : store.entries.lookup key with
  | none =>
    have vacant : ¬ store.HasLive key moment.first := by
      rintro ⟨entry, stored, _⟩
      rw [found] at stored
      cases stored
    simp only [vacant, not_false_eq_true, true_imp_iff]
    exact answers_incrVacant sane key delta ttl moment
  | some entry =>
    dsimp only
    cases expired : entry.isExpired moment.first with
    | true =>
      have vacant : ¬ store.HasLive key moment.first := by
        rintro ⟨other, stored, live⟩
        rw [found, Option.some.injEq] at stored
        rw [← stored, expired] at live
        cases live
      have erased : (store.withEntries (store.entries.erase key)).poisoned = false := sane
      simp only [vacant, not_false_eq_true, true_imp_iff, if_true]
      exact answers_incrVacant erased key delta ttl moment
    | false =>
      rw [if_neg Bool.false_ne_true]
      refine .inl ⟨fun vacant => absurd ⟨entry, found, expired⟩ vacant, ?_⟩
      unfold incrOccupied
      split
      · exact ⟨nofun, sane⟩
      · exact ⟨nofun, sane⟩

theorem answers_expire (ttl : Int)
    (moment : CacheMoment) :
    Answers (store.expire key ttl moment)
      (store.HasLive key moment.first → TtlFits moment.second ttl) := by
  unfold expire
  rw [locked_eq sane]
  cases found : store.entries.lookup key with
  | none =>
    refine .inl ⟨?_, nofun, sane⟩
    rintro ⟨entry, stored, _⟩
    rw [found] at stored
    cases stored
  | some entry =>
    dsimp only
    cases expired : entry.isExpired moment.first with
    | true =>
      rw [if_pos rfl]
      refine .inl ⟨?_, nofun, sane⟩
      rintro ⟨other, stored, live⟩
      rw [found, Option.some.injEq] at stored
      rw [← stored, expired] at live
      cases live
    | false =>
      rw [if_neg Bool.false_ne_true]
      have held : store.HasLive key moment.first := ⟨entry, found, expired⟩
      split
      · next none =>
        exact .inr ⟨fun fits => expireAtUtc_eq_none_iff.mp none (fits held), rfl⟩
      · next expireAt computed =>
        refine .inl ⟨fun _ => expireAtUtc_isSome_iff.mp ?_, nofun, sane⟩
        rw [computed]
        rfl

theorem answers_ttl (moment : CacheMoment) :
    Returns (store.ttl key moment) ∧ ∃ left, (store.ttl key moment).1 = .number left := by
  unfold ttl
  rw [locked_eq sane]
  split
  · exact ⟨⟨nofun, sane⟩, _, rfl⟩
  · split
    · exact ⟨⟨nofun, sane⟩, _, rfl⟩
    · exact ⟨⟨nofun, sane⟩, _, rfl⟩

theorem returns_get (moment : CacheMoment) : Returns (store.get key moment) := by
  unfold get
  rw [locked_eq sane]
  split
  · exact ⟨nofun, sane⟩
  · split
    · exact ⟨nofun, sane⟩
    · exact ⟨nofun, sane⟩

end

/-- On a cache whose mutex is not poisoned an operation returns exactly when the
expiry it computes can be expressed. -/
theorem answers_perform (sane : store.poisoned = false) (event : CacheEvent) :
    Answers (store.perform event) (store.Representable event) := by
  obtain ⟨call, moment⟩ := event
  cases call with
  | set key value valueType ttl => exact answers_set sane key value valueType ttl moment
  | incr key delta ttl => exact answers_incr sane key delta ttl moment
  | expire key ttl => exact answers_expire sane key ttl moment
  | get key => exact .inl ⟨trivial, returns_get sane key moment⟩
  | delete key =>
    have returned : Returns (store.delete key) := by
      unfold delete
      rw [locked_eq sane]
      exact ⟨by rintro ⟨⟩, sane⟩
    exact .inl ⟨trivial, returned⟩
  | ttl key => exact .inl ⟨trivial, (answers_ttl sane key moment).1⟩
  | «exists» key =>
    obtain ⟨⟨_, kept⟩, left, answered⟩ := answers_ttl sane key moment
    have returned : Returns (store.exists key moment) := by
      refine ⟨?_, (exists_store key moment store).symm ▸ kept⟩
      unfold «exists»
      rw [← Prod.eta (store.ttl key moment), answered]
      rintro ⟨⟩
    exact .inl ⟨trivial, returned⟩
  | purgeExpired =>
    refine .inl ⟨trivial, ?_⟩
    rw [perform, purgeExpired, locked_eq sane]
    exact ⟨by rintro ⟨⟩, sane⟩
  | entries =>
    refine .inl ⟨trivial, ?_⟩
    rw [perform, snapshot, locked_eq sane]
    exact ⟨by rintro ⟨⟩, sane⟩

/-- In a run of a cache whose mutex is not poisoned no operation panics exactly when
each expiry can be expressed. -/
theorem answers_ne_panicked_iff :
    ∀ {events : List CacheEvent} {store : CacheStore}, store.poisoned = false →
      ((∀ answer ∈ store.answers events, answer ≠ .panicked) ↔
        Along step Representable store events)
  | [], _, _ => iff_of_true (by simp [answers]) trivial
  | event :: later, store, sane => by
    rw [answers, List.forall_mem_cons]
    rcases answers_perform sane event with ⟨representable, returned, kept⟩ | ⟨lost, panics⟩
    · rw [answers_ne_panicked_iff kept]
      constructor
      · rintro ⟨_, onward⟩
        refine ⟨representable, ?_⟩
        rintro after ⟨⟩
        exact onward
      · rintro ⟨_, onward⟩
        exact ⟨returned, onward _ rfl⟩
    · refine iff_of_false ?_ fun along => lost along.1
      rintro ⟨returned, _⟩
      exact returned panics

theorem throughout_unpoisoned :
    ∀ {events : List CacheEvent} {store : CacheStore}, store.poisoned = false →
      Along step Representable store events →
        Throughout step (fun current => current.poisoned = false) store events
  | [], _, sane, _ => sane
  | event :: later, store, sane, along => by
    refine ⟨sane, ?_⟩
    rintro after ⟨⟩
    rcases answers_perform sane event with ⟨_, _, kept⟩ | ⟨lost, _⟩
    · exact throughout_unpoisoned kept (along.2 _ rfl)
    · exact absurd along.1 lost

end CacheStore

/-! ## The lock service -/

namespace LockCall

/-- The time to live of a call the handlers accept. -/
def expiryTtl? (call : LockCall) : Option Int :=
  if call.Invalid then
    none
  else
    match call with
    | .acquire _ _ ttl | .renew _ _ ttl => some ttl
    | _ => none

/-- The last thing the call did was to read the clock, for a sum that cannot be
expressed. -/
def Overflows (call : LockCall) (path : List (Exchange LockAction LockReply)) : Prop :=
  ∃ (ttl : Int) (now : Nat), call.expiryTtl? = some ttl ∧
    path.head? = some ⟨.now, now⟩ ∧ ¬ TtlFits now ttl

def EndsAsIt (call : LockCall) (path : List (Exchange LockAction LockReply))
    (outcome : LockOutcome) : Prop :=
  outcome = .panicked ↔ call.Overflows path

variable {call : LockCall}

theorem expiryTtl?_pos {ttl : Int} (timed : call.expiryTtl? = some ttl) : 0 < ttl := by
  unfold expiryTtl? at timed
  split at timed
  · cases timed
  · next valid =>
    split at timed
    · cases timed
      simp only [Invalid, not_or, Int.not_le] at valid
      exact valid.2.2
    · cases timed
      simp only [Invalid, not_or, Int.not_le] at valid
      exact valid.2.2
    · cases timed

variable {path : List (Exchange LockAction LockReply)}

theorem endsAsIt_returned {outcome : LockOutcome}
    (returned : outcome ≠ .panicked) (settled : path.head?.map (·.request) ≠ some .now) :
    call.EndsAsIt path outcome := by
  refine iff_of_false returned ?_
  rintro ⟨_, now, _, read, _⟩
  exact settled (by rw [read]; rfl)

theorem Returns.endsAsIt {outcome : LockOutcome} (returned : call.Returns path outcome) :
    call.EndsAsIt path outcome := by
  cases returned with
  | nothing _ returned settled => exact endsAsIt_returned returned settled
  | @panicked _ _ now ttl valid timed lost =>
    have asked : call.expiryTtl? = some ttl := (if_neg valid).trans timed
    refine iff_of_true rfl ⟨ttl, now, asked, rfl, ?_⟩
    rw [← expiry_isSome_iff (expiryTtl?_pos asked), lost]
    exact Bool.false_ne_true
  | acquired | renewed | released => exact endsAsIt_returned (by simp) (by simp)
  | looked =>
    refine iff_of_false (by simp) ?_
    rintro ⟨_, _, timed, _⟩
    unfold expiryTtl? at timed
    split at timed <;> cases timed

theorem ends_program (call : LockCall) :
    Program.Ensures call.May call.EndsAsIt [] call.program :=
  call.returns_program.weaken fun _ _ => Returns.endsAsIt

end LockCall

/-! ## Both services -/

/-- No operation of the cache panics, and its mutex is never poisoned, exactly in the
runs in which every expiry that is computed can be expressed; a call of the lock
service panics exactly when its expiry cannot be expressed. -/
theorem ttl_panics_iff (maxEntries : Nat) (events : List CacheEvent) (initial : LockState)
    (lockEvents : List LockEvent) :
    (((∀ answer ∈ (CacheStore.new maxEntries).answers events, answer ≠ .panicked) ↔
        Along CacheStore.step CacheStore.Representable (CacheStore.new maxEntries) events) ∧
        (Along CacheStore.step CacheStore.Representable (CacheStore.new maxEntries) events →
          Throughout CacheStore.step (fun store => store.poisoned = false)
            (CacheStore.new maxEntries) events)) ∧
      ∀ service : LockService, lockSchedule initial lockEvents = some service →
          ∀ returned ∈ service.finished, returned.result = .panicked ↔
              returned.call.Overflows (ownPath returned.thread service.history) := by
  refine ⟨⟨?_, ?_⟩, fun service scheduled => ?_⟩
  · exact CacheStore.answers_ne_panicked_iff rfl
  · exact CacheStore.throughout_unpoisoned rfl
  · exact (Pool.accounted_replay LockCall.ends_program scheduled).finished

/-- One increment with the largest time to live panics while it holds the mutex, and
from then on every operation on the cache panics; one acquire with it ends without an
answer. -/
theorem ttl_panics : (CacheStore.new 1000).answers
    [⟨.incr "visits" 1 (2 ^ 63 - 1), ⟨0, 0, 0, fun _ => 0⟩⟩,
      ⟨.set "other" [] "" 0, ⟨1, 1, 1, fun _ => 0⟩⟩,
      ⟨.get "other", ⟨2, 2, 2, fun _ => 0⟩⟩] =
      [.panicked, .panicked, .panicked] ∧
      (lockSchedule ⟨Table.empty, 0⟩
          [.spawn (.acquire "job" "me" (2 ^ 63 - 1)), .advance 0 ⟨0, false⟩,
            .advance 0 ⟨0, false⟩, .advance 0 ⟨0, false⟩]).map
          (fun service => service.finished.map (·.result)) =
        some [.panicked] := by
  decide +kernel

end CanglingBroker
