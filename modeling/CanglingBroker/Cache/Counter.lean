import CanglingBroker.Cache.Panics

/-!
# Counters in the cache

`incr` adds to the number an entry spells out.  The sum is an addition of `i64`, which wraps
around in a release build; where it does not, the sum is stored as decimal text that reads
back to the same number.
-/

namespace CanglingBroker

open Foundation

/-! ## Numbers as text -/

/-- A value of `i64`. -/
def IsI64 (value : Int) : Prop :=
  -2 ^ 63 ≤ value ∧ value < 2 ^ 63

theorem wrappingAdd_eq_iff (left right : Int) :
    wrappingAdd left right = left + right ↔ IsI64 (left + right) := by
  unfold wrappingAdd IsI64 Int.bmod
  dsimp only
  split
  · omega
  · omega

theorem isWhiteSpace_of_isDigit {character : Char} (digit : character.isDigit = true) :
    isWhiteSpace character = false := by
  simp only [Char.isDigit, Bool.and_eq_true, decide_eq_true_eq] at digit
  obtain ⟨low, high⟩ := digit
  have least : 48 ≤ character.toNat := low
  have most : character.toNat ≤ 57 := high
  simp only [isWhiteSpace, Bool.or_eq_false_iff, Bool.and_eq_false_iff, decide_eq_false_iff_not]
  omega

theorem trim_eq_self {text : List Char}
    (clean : ∀ character ∈ text, isWhiteSpace character = false) :
    trim text = text := by
  have kept :
      ∀ {characters : List Char}, (∀ character ∈ characters, isWhiteSpace character = false) →
        characters.dropWhile isWhiteSpace = characters := by
    intro characters clean
    cases characters with
    | nil => rfl
    | cons first =>
      rw [List.dropWhile_cons_of_neg]
      rw [clean first List.mem_cons_self]
      exact Bool.false_ne_true
  unfold trim
  rw [kept clean, kept fun character member => clean character (List.mem_reverse.mp member),
    List.reverse_reverse]

theorem decimal_toDigits (number : Nat) : decimal (Nat.toDigits 10 number) = some number := by
  have digits : (Nat.toDigits 10 number).all Char.isDigit = true :=
    List.all_eq_true.mpr fun digit member =>
      Nat.isDigit_of_mem_toDigits (by decide) (by decide) member
  have nonempty : (Nat.toDigits 10 number).isEmpty = false :=
    List.isEmpty_eq_false_iff.mpr Nat.toDigits_ne_nil
  have read : Nat.ofDigitChars 10 (Nat.toDigits 10 number) 0 = number :=
    Nat.ofDigitChars_toDigits (by decide) (by decide)
  rw [decimal, nonempty, digits, Bool.not_true, Bool.or_self, if_neg Bool.false_ne_true]
  rw [Nat.ofDigitChars_eq_foldl] at read
  simp only [Nat.mul_comm 10] at read
  exact congrArg some read

theorem toList_toString (value : Int) : (toString value).toList =
    match value with
    | .ofNat number => Nat.toDigits 10 number
    | .negSucc number => '-' :: Nat.toDigits 10 (number + 1) := by
  cases value with
  | ofNat =>
    rw [Int.toString_eq_repr]
    exact Nat.toList_repr
  | negSucc number =>
    rw [Int.toString_eq_repr]
    change ("-" ++ (number + 1).repr).toList = _
    rw [String.toList_append, Nat.toList_repr]
    rfl

theorem parseInteger_of_digits {digits : List Char}
    (plain : ∀ digit ∈ digits, digit.isDigit = true) :
    parseInteger digits = (decimal digits).bind fun value => inI64 value := by
  unfold parseInteger
  split
  · exact absurd (plain '-' (.head _)) (by decide)
  · exact absurd (plain '+' (.head _)) (by decide)
  · rfl

variable {value : Int}

theorem inI64_eq (fits : IsI64 value) : inI64 value = some value :=
  if_pos fits

/-- The decimal text of a value of `i64` reads back to it. -/
theorem parseI64_integerBytes (fits : IsI64 value) :
    parseI64 (integerBytes value) = some value := by
  have digits : ∀ number : Nat, ∀ digit ∈ Nat.toDigits 10 number, digit.isDigit = true :=
    fun number digit member => Nat.isDigit_of_mem_toDigits (by decide) (by decide) member
  rw [parseI64, integerBytes, fromUtf8_textBytes, Option.bind_some, toList_toString]
  cases value with
  | ofNat number =>
    have clean := fun digit member => isWhiteSpace_of_isDigit (digits number digit member)
    dsimp only
    rw [trim_eq_self clean, parseInteger_of_digits (digits number), decimal_toDigits,
      Option.bind_some, ← Int.ofNat_eq_natCast, inI64_eq fits]
  | negSucc number =>
    have clean : ∀ character ∈ '-' :: Nat.toDigits 10 (number + 1),
        isWhiteSpace character = false := by
      intro character member
      rcases List.mem_cons.mp member with rfl | later
      · decide
      · exact isWhiteSpace_of_isDigit (digits _ character later)
    have same : -((number + 1 : Nat) : Int) = Int.negSucc number := rfl
    dsimp only
    rw [trim_eq_self clean, parseInteger, decimal_toDigits, Option.bind_some, same, inI64_eq fits]

theorem isI64_of_parseI64 {bytes : List UInt8} (read : parseI64 bytes = some value) :
    IsI64 value := by
  have ranged : ∀ {number other : Int}, inI64 number = some other → IsI64 other := by
    intro number other fits
    unfold inI64 at fits
    split at fits
    · next within =>
      cases fits
      exact within
    · cases fits
  obtain ⟨text, _, parsed⟩ := Option.bind_eq_some_iff.mp read
  unfold parseInteger at parsed
  split at parsed
  all_goals
    obtain ⟨number, _, fits⟩ := Option.bind_eq_some_iff.mp parsed
    exact ranged fits

namespace CacheStore

/-! ## One `incr` -/

/-- The value that `incr` adds to: zero where there is no live entry, nothing where the live
entry is not a number. -/
def previous (store : CacheStore) (key : String) (now : Nat) : Option Int :=
  match store.entries.lookup key with
  | none => some 0
  | some entry => if entry.isExpired now then some 0 else parseI64 entry.value

/-- The exact sum is returned and stored, as text that reads back to it, and a live entry
keeps its expiry. -/
def AddsExactly (store : CacheStore) (key : String) (delta : Int) (moment : CacheMoment)
    (result : CacheOutcome × CacheStore) : Prop :=
  ∃ value entry, store.previous key moment.first = some value ∧ result.1 = .number (value + delta) ∧
      result.2.entries.lookup key = some entry ∧
      entry.value = integerBytes (value + delta) ∧
      parseI64 entry.value = some (value + delta) ∧
      ∀ old, store.entries.lookup key = some old → old.isExpired moment.first = false →
        entry.expireAt = old.expireAt

def Refuses (store : CacheStore) (key : String) (result : CacheOutcome × CacheStore) : Prop :=
  (∃ message, result.1 = .notANumber message) ∧
    result.2.entries.lookup key = store.entries.lookup key

/-- The mutex is not poisoned, the sum is a value of `i64`, and a new entry has an expiry
that can be expressed. -/
structure CanAdd (store : CacheStore) (key : String) (delta ttl : Int) (moment : CacheMoment) :
    Prop where
  sane : store.poisoned = false
  inRange : ∀ value, store.previous key moment.first = some value → IsI64 (value + delta)
  expressible : ¬store.HasLive key moment.first → TtlFits moment.second ttl

section Incr

variable {store : CacheStore} {key : String} {delta ttl : Int} {moment : CacheMoment}

theorem addsExactly_incrVacant {emptied : CacheStore} (fits : IsI64 delta)
    (expressible : TtlFits moment.second ttl) (vacant : ¬store.HasLive key moment.first) :
    AddsExactly store key delta moment (emptied.incrVacant key delta ttl moment) := by
  have nothing : store.previous key moment.first = some 0 := by
    unfold previous
    cases found : store.entries.lookup key with
    | none => rfl
    | some entry =>
      cases expired : entry.isExpired moment.first with
      | true => simp [expired]
      | false => exact absurd ⟨entry, found, expired⟩ vacant
  obtain ⟨expireAt, computed⟩ :=
    Option.isSome_iff_exists.mp (expireAtUtc_isSome_iff.mpr expressible)
  rw [incrVacant, computed]
  refine ⟨0, _, nothing, ?_, AList.lookup_insert _, ?_, ?_, ?_⟩
  · rw [zero_add]
  · rw [zero_add]
  · rw [zero_add]
    exact parseI64_integerBytes fits
  · exact fun old found live => absurd ⟨old, found, live⟩ vacant

theorem not_exact_of_panicked {result : CacheOutcome × CacheStore}
    (panicked : result.1 = .panicked) :
    ¬(AddsExactly store key delta moment result ∨ Refuses store key result) := by
  rintro (⟨_, _, _, returned, _⟩ | ⟨⟨_, returned⟩, _⟩)
  · rw [panicked] at returned
    cases returned
  · rw [panicked] at returned
    cases returned

/-- Adding to a number is exact exactly when the sum is a value of `i64`. -/
theorem incrOccupied_exact_iff {entry : CacheEntry}
    (found : store.entries.lookup key = some entry) (live : entry.isExpired moment.first = false) :
    (AddsExactly store key delta moment (store.incrOccupied key delta moment entry) ∨
        Refuses store key (store.incrOccupied key delta moment entry)) ↔
      ∀ value, store.previous key moment.first = some value → IsI64 (value + delta) := by
  have stored : store.previous key moment.first = parseI64 entry.value := by
    rw [previous, found]
    exact if_neg (by rw [live]; exact Bool.false_ne_true)
  rw [incrOccupied, stored]
  cases read : parseI64 entry.value with
  | none => exact iff_of_true (.inr ⟨⟨_, rfl⟩, rfl⟩) nofun
  | some current =>
    dsimp only
    constructor
    · rintro (⟨value, _, isValue, returned, _⟩ | ⟨⟨_, returned⟩, _⟩) other same
      · rw [stored, read] at isValue
        cases isValue
        cases same
        exact (wrappingAdd_eq_iff current delta).mp (CacheOutcome.number.inj returned)
      · cases returned
    · intro inRange
      have exact := inRange current rfl
      have sum := (wrappingAdd_eq_iff current delta).mpr exact
      refine .inl ⟨current, _, stored.trans read, ?_, AList.lookup_insert _, ?_, ?_, ?_⟩
      · rw [sum]
      · rw [sum]
      · rw [sum]
        exact parseI64_integerBytes exact
      · intro old same _
        rw [found, Option.some.injEq] at same
        rw [← same]

/-- `incr` returns and stores the exact sum, or an error and the entry as it was, exactly
when it can add. -/
theorem incr_exact_iff (fits : IsI64 delta) :
    (AddsExactly store key delta moment (store.incr key delta ttl moment) ∨
        Refuses store key (store.incr key delta ttl moment)) ↔
      CanAdd store key delta ttl moment := by
  cases poisoned : store.poisoned with
  | true =>
    have panicked : (store.incr key delta ttl moment).1 = .panicked := by
      rw [incr, locked, poisoned, if_pos rfl]
    refine iff_of_false (not_exact_of_panicked panicked) fun can => ?_
    exact Bool.false_ne_true (can.sane.symm.trans poisoned)
  | false =>
    by_cases occupied : store.HasLive key moment.first
    · obtain ⟨entry, found, live⟩ := occupied
      have isOccupied :
          store.incr key delta ttl moment = store.incrOccupied key delta moment entry := by
        rw [incr, locked_eq poisoned, found]
        exact if_neg (by rw [live]; exact Bool.false_ne_true)
      rw [isOccupied, incrOccupied_exact_iff found live]
      exact ⟨fun inRange => ⟨poisoned, inRange, fun vacant => absurd ⟨entry, found, live⟩ vacant⟩,
        fun can => can.inRange⟩
    · obtain ⟨emptied, isVacant⟩ :
          ∃ emptied, store.incr key delta ttl moment = incrVacant key delta ttl moment emptied := by
        rw [incr, locked_eq poisoned]
        cases found : store.entries.lookup key with
        | none => exact ⟨store, rfl⟩
        | some entry =>
          cases expired : entry.isExpired moment.first with
          | true => exact ⟨_, if_pos expired⟩
          | false => exact absurd ⟨entry, found, expired⟩ occupied
      rw [isVacant]
      by_cases expressible : TtlFits moment.second ttl
      · have exact :
            AddsExactly store key delta moment (emptied.incrVacant key delta ttl moment) :=
          addsExactly_incrVacant fits expressible occupied
        refine iff_of_true (.inl exact) ⟨poisoned, fun other same => ?_, fun _ => expressible⟩
        obtain ⟨value, entry, isValue, _, _, _, read, _⟩ := exact
        rw [isValue] at same
        cases same
        exact isI64_of_parseI64 read
      · refine iff_of_false (not_exact_of_panicked ?_) fun can => ?_
        · rw [incrVacant, expireAtUtc_eq_none_iff.mpr expressible]
        · exact expressible (can.expressible occupied)

end Incr

/-! ## Several `incr` on one key -/

def counter (store : CacheStore) (key : String) : Option Int :=
  (store.entries.lookup key).bind fun entry => parseI64 entry.value

def addend : CacheCall → Int
  | .incr _ delta _ => delta
  | _ => 0

/-- The event is an `incr` of the key that can add to a live entry. -/
def AddsToLive (key : String) (store : CacheStore) (event : CacheEvent) : Prop :=
  ∃ delta ttl, event.call = .incr key delta ttl ∧ IsI64 delta ∧
      store.HasLive key event.moment.first ∧ store.CanAdd key delta ttl event.moment

theorem counter_step {key : String} {store after : CacheStore} {event : CacheEvent} {value : Int}
    (adds : AddsToLive key store event) (counted : store.counter key = some value)
    (stepped : store.step event = some after) :
    after.counter key = some (value + addend event.call) := by
  obtain ⟨delta, ttl, isIncr, fits, ⟨old, found, live⟩, can⟩ := adds
  have performed : after = (store.incr key delta ttl event.moment).2 := by
    rw [step, perform, isIncr, Option.some.injEq] at stepped
    exact stepped.symm
  have read : store.previous key event.moment.first = some value := by
    rw [counter, found, Option.bind_some] at counted
    rw [previous, found, ← counted]
    exact if_neg (by rw [live]; exact Bool.false_ne_true)
  rcases (incr_exact_iff fits).mpr can with
    ⟨other, entry, isValue, _, stored, _, readsBack, _⟩ | ⟨⟨message, refused⟩, _⟩
  · rw [read] at isValue
    cases isValue
    rw [counter, performed, stored, Option.bind_some, readsBack, isIncr]
    rfl
  · rw [counter, found, Option.bind_some] at counted
    have occupied : ¬old.isExpired event.moment.first = true := by
      rw [live]
      exact Bool.false_ne_true
    rw [incr, locked_eq can.sane, found] at refused
    simp only [if_neg occupied, incrOccupied, counted] at refused
    cases refused

theorem counter_run {key : String} :
    ∀ {events : List CacheEvent} {store final : CacheStore} {value : Int},
      run step store events = some final →
        Along step (AddsToLive key) store events → store.counter key = some value →
            final.counter key = some (value + (events.map fun event => addend event.call).sum)
  | [], store, final, value, ran, _, counted => by
    cases ran
    rw [List.map_nil, List.sum_nil, add_zero]
    exact counted
  | event :: later, store, final, value, ran, along, counted => by
    obtain ⟨reached, stepped, rest⟩ := run_cons_eq_some.mp ran
    have next := counter_step along.1 counted stepped
    rw [List.map_cons, List.sum_cons, ← add_assoc]
    exact counter_run rest (along.2 reached stepped) next

end CacheStore

/-- Increments are exact or refused exactly where the sum is a value of `i64`, and then the
increments of a live key add up. -/
theorem incr_exact_or_refused_iff (key : String) :
    (∀ (store : CacheStore) (delta ttl : Int) (moment : CacheMoment), IsI64 delta →
      ((store.AddsExactly key delta moment (store.incr key delta ttl moment) ∨
          store.Refuses key (store.incr key delta ttl moment)) ↔
        store.CanAdd key delta ttl moment)) ∧
      ∀ (events : List CacheEvent) (store final : CacheStore) (value : Int),
        run CacheStore.step store events = some final →
          Along CacheStore.step (CacheStore.AddsToLive key) store events →
            store.counter key = some value → final.counter key =
                some (value + (events.map fun event => CacheStore.addend event.call).sum) :=
  ⟨fun _ _ _ _ fits => CacheStore.incr_exact_iff fits,
    fun _ _ _ _ ran along counted => CacheStore.counter_run ran along counted⟩

/-- A counter at the largest value of `i64`. -/
def atMaximum : List CacheEvent :=
  [⟨.set "hits" (textBytes "9223372036854775807") "long" 0, ⟨1, 1, 1, fun _ => 0⟩⟩]

theorem incr_exact_or_refused_iff_hits :
    let moment : CacheMoment := ⟨1, 1, 1, fun _ => 0⟩
    let created := ((CacheStore.new 8).incr "hits" 5 0 moment).2
    (CacheStore.new 8).CanAdd "hits" 5 0 moment ∧ ((CacheStore.new 8).AddsExactly "hits" 5 moment
        ((CacheStore.new 8).incr "hits" 5 0 moment) ∨
        (CacheStore.new 8).Refuses "hits" ((CacheStore.new 8).incr "hits" 5 0 moment)) ∧
      created.AddsToLive "hits" ⟨.incr "hits" 3 0, moment⟩ ∧
      ∃ final, run CacheStore.step created [⟨.incr "hits" 3 0, moment⟩] = some final ∧
          final.counter "hits" = some (5 + ([3] : List Int).sum) := by
  intro moment created
  have fits : ∀ {value : Int}, value = 3 ∨ value = 5 ∨ value = 8 → IsI64 value := by
    rintro value (rfl | rfl | rfl)
    all_goals exact ⟨by decide, by decide⟩
  have can : (CacheStore.new 8).CanAdd "hits" 5 0 moment := by
    refine ⟨rfl, fun value same => ?_, fun _ => .inl (le_refl 0)⟩
    cases same
    exact fits (.inr (.inl rfl))
  have counted : created.counter "hits" = some 5 := by decide +kernel
  have adds : created.AddsToLive "hits" ⟨.incr "hits" 3 0, moment⟩ := by
    refine ⟨3, 0, rfl, fits (.inl rfl), ⟨_, rfl, rfl⟩, rfl, fun value same => ?_, ?_⟩
    · have read : created.previous "hits" 1 = some 5 := by decide +kernel
      cases read.symm.trans same
      exact fits (.inr (.inr rfl))
    · exact fun _ => .inl (le_refl 0)
  obtain ⟨single, several⟩ := incr_exact_or_refused_iff "hits"
  refine ⟨can, (single _ 5 0 _ (fits (.inr (.inl rfl)))).mpr can, adds, _, rfl, ?_⟩
  exact several [⟨.incr "hits" 3 0, moment⟩] _ _ 5 rfl ⟨adds, fun _ _ => trivial⟩ counted

/-- One more than the largest value is the smallest one. -/
theorem incr_wraps_around : ∃ final,
    run CacheStore.step (CacheStore.new 8) atMaximum = some final ∧
      final.previous "hits" 2 = some (2 ^ 63 - 1) ∧
      (final.incr "hits" 1 0 ⟨2, 2, 2, fun _ => 0⟩).1 = .number (-2 ^ 63) ∧
      (final.incr "hits" 1 0 ⟨2, 2, 2, fun _ => 0⟩).2.counter "hits" = some (-2 ^ 63) := by
  refine ⟨_, rfl, ?_⟩
  decide +kernel

end CanglingBroker
