import CanglingBroker.Config
import CanglingBroker.Foundation.Bytes
import CanglingBroker.Foundation.Dict
import CanglingBroker.Lock.Store

/-!
# The cache

`CacheStore` is a map behind one mutex.  An expired entry stays in the map until an
operation happens on it.  The instants an operation reads are part of its event.  A panic
while the mutex is held poisons it.
-/

namespace CanglingBroker

open Foundation
open Dict (size retain)

structure CacheEntry where
  value : List UInt8
  valueType : String
  expireAt : Option Nat
  lastAccessed : Nat
  deriving DecidableEq, Repr

def CacheEntry.isExpired (entry : CacheEntry) (now : Nat) : Bool :=
  entry.expireAt.any fun deadline => decide (deadline ≤ now)

/-- `CacheStore`; `poisoned` is the state of its mutex. -/
structure CacheStore where
  entries : Dict String CacheEntry
  maxEntries : Nat
  poisoned : Bool

inductive CacheCall where
  | set (key : String) (value : List UInt8) (valueType : String) (ttl : Int)
  | get (key : String)
  | delete (key : String)
  | incr (key : String) (delta ttl : Int)
  | expire (key : String) (ttl : Int)
  | ttl (key : String)
  | exists (key : String)
  | purgeExpired
  | entries
  deriving DecidableEq, Repr

/-- The instants an operation reads, in order, and the order in which it walks the
map. -/
structure CacheMoment where
  first : Nat
  second : Nat
  third : Nat
  rank : String → Nat := fun _ => 0

/-- An operation with what it reads. -/
structure CacheEvent where
  call : CacheCall
  moment : CacheMoment

/-- What an operation ends with. -/
inductive CacheOutcome where
  | stored
  | found (entry : Option (List UInt8 × String))
  | flag (value : Bool)
  | number (value : Int)
  | notANumber (message : String)
  | count (value : Nat)
  | listing (entries : List (String × List UInt8 × String × Int))
  | panicked
  deriving DecidableEq, Repr

/-! ## Values -/

/-- `expire_at_utc`; the sum may panic. -/
def expireAtUtc (now : Nat) (ttl : Int) : Option (Option Nat) :=
  if ttl ≤ 0 then some none else (expiry now ttl).map some

def normalizeValueType (valueType : String) : String :=
  let trimmed := String.ofList (trim valueType.toList)
  if trimmed = "" then "string" else trimmed

def decimal (digits : List Char) : Option Nat :=
  if digits.isEmpty || !digits.all Char.isDigit then
    none
  else
    some (digits.foldl (fun value digit => value * 10 + (digit.toNat - 48)) 0)

/-- A value in the range of `i64`. -/
def inI64 (value : Int) : Option Int :=
  if -2 ^ 63 ≤ value ∧ value < 2 ^ 63 then some value else none

/-- `str::parse::<i64>`. -/
def parseInteger : List Char → Option Int
  | '-' :: digits => (decimal digits).bind fun value => inI64 (-value)
  | '+' :: digits => (decimal digits).bind fun value => inI64 value
  | digits => (decimal digits).bind fun value => inI64 value

def parseI64 (bytes : List UInt8) : Option Int :=
  (fromUtf8 bytes).bind fun text => parseInteger (trim text.toList)

/-- The bytes of `i64::to_string`. -/
def integerBytes (value : Int) : List UInt8 :=
  textBytes (toString value)

/-- Addition of `i64`, which wraps around. -/
def wrappingAdd (left right : Int) : Int :=
  Int.bmod (left + right) (2 ^ 64)

namespace CacheStore

def new (maxEntries : Nat) : CacheStore where
  entries := ∅
  maxEntries := max maxEntries 1
  poisoned := false

def withEntries (store : CacheStore) (entries : Dict String CacheEntry) : CacheStore :=
  { store with entries := entries }

/-- What a panic leaves of a store whose mutex is held. -/
def poison (store : CacheStore) : CacheStore :=
  { store with poisoned := true }

def live (now : Nat) (entries : Dict String CacheEntry) : Dict String CacheEntry :=
  retain (fun _ entry => !entry.isExpired now) entries

def locked (store : CacheStore) (operation : CacheOutcome × CacheStore) :
    CacheOutcome × CacheStore :=
  if store.poisoned then (.panicked, store) else operation

/-- The key that `min_by_key` finds: the first with the oldest access. -/
def lruKey (rank : String → Nat) (entries : Dict String CacheEntry) : Option String :=
  ((entries.entries.mergeSort fun left right => decide (rank left.1 ≤ rank right.1)).argmin
    fun entry => entry.2.lastAccessed).map (·.1)

/-- The eviction loop of `set`. -/
def evict (rank : String → Nat) (bound : Nat) :
    Nat → Dict String CacheEntry → Dict String CacheEntry
  | 0, entries => entries
  | fuel + 1, entries =>
    if size entries ≤ bound then
      entries
    else
      match lruKey rank entries with
      | none => entries
      | some key => evict rank bound fuel (entries.erase key)

/-- Make room after an insertion. -/
def bounded (moment : CacheMoment) (bound : Nat) (entries : Dict String CacheEntry) :
    Dict String CacheEntry :=
  if bound < size entries then
    let remaining := live moment.third entries
    evict moment.rank bound (size remaining) remaining
  else
    entries

/-- `CacheStore::set`.  The expiry is computed before the mutex is taken. -/
def set (key : String) (value : List UInt8) (valueType : String) (ttl : Int)
    (moment : CacheMoment) (store : CacheStore) : CacheOutcome × CacheStore :=
  match expireAtUtc moment.first ttl with
  | none => (.panicked, store)
  | some expireAt =>
    let entry : CacheEntry :=
      { value := value
        valueType := normalizeValueType valueType
        expireAt := expireAt
        lastAccessed := moment.second }
    store.locked
      (.stored,
        store.withEntries (bounded moment store.maxEntries (store.entries.insert key entry)))

def get (key : String) (moment : CacheMoment) (store : CacheStore) :
    CacheOutcome × CacheStore :=
  store.locked <|
    match store.entries.lookup key with
    | none => (.found none, store)
    | some entry =>
      if entry.isExpired moment.first then
        (.found none, store.withEntries (store.entries.erase key))
      else
        (.found (some (entry.value, entry.valueType)),
          store.withEntries (store.entries.insert key { entry with lastAccessed := moment.first }))

def delete (key : String) (store : CacheStore) : CacheOutcome × CacheStore :=
  store.locked
    (.flag (store.entries.lookup key).isSome, store.withEntries (store.entries.erase key))

def incrOccupied (key : String) (delta : Int) (moment : CacheMoment)
    (store : CacheStore) (entry : CacheEntry) : CacheOutcome × CacheStore :=
  match parseI64 entry.value with
  | none => (.notANumber ("cache value is not a number for key " ++ key), store)
  | some current =>
    let next := wrappingAdd current delta
    (.number next,
      store.withEntries
        (store.entries.insert key
          { entry with
            value := integerBytes next
            valueType := "long"
            lastAccessed := moment.first }))

def incrVacant (key : String) (delta ttl : Int) (moment : CacheMoment)
    (store : CacheStore) : CacheOutcome × CacheStore :=
  match expireAtUtc moment.second ttl with
  | none => (.panicked, store.poison)
  | some expireAt =>
    (.number delta,
      store.withEntries
        (store.entries.insert key
          { value := integerBytes delta
            valueType := "long"
            expireAt := expireAt
            lastAccessed := moment.third }))

def incr (key : String) (delta ttl : Int) (moment : CacheMoment) (store : CacheStore) :
    CacheOutcome × CacheStore :=
  store.locked <|
    match store.entries.lookup key with
    | none => incrVacant key delta ttl moment store
    | some entry =>
      if entry.isExpired moment.first then
        incrVacant key delta ttl moment (store.withEntries (store.entries.erase key))
      else
        incrOccupied key delta moment store entry

def expire (key : String) (ttl : Int) (moment : CacheMoment) (store : CacheStore) :
    CacheOutcome × CacheStore :=
  store.locked <|
    match store.entries.lookup key with
    | none => (.flag false, store)
    | some entry =>
      if entry.isExpired moment.first then
        (.flag false, store.withEntries (store.entries.erase key))
      else
        match expireAtUtc moment.second ttl with
        | none => (.panicked, store.poison)
        | some expireAt =>
          (.flag true,
            store.withEntries (store.entries.insert key { entry with expireAt := expireAt }))

/-- Whole seconds until the deadline, `-1` without one. -/
def secondsLeft (now : Nat) : Option Nat → Int
  | none => -1
  | some deadline => ((deadline - now) / nanosPerSecond : Nat)

def ttl (key : String) (moment : CacheMoment) (store : CacheStore) :
    CacheOutcome × CacheStore :=
  store.locked <|
    match store.entries.lookup key with
    | none => (.number (-2), store)
    | some entry =>
      if entry.isExpired moment.first then
        (.number (-2), store.withEntries (store.entries.erase key))
      else
        (.number (secondsLeft moment.second entry.expireAt), store)

def «exists» (key : String) (moment : CacheMoment) (store : CacheStore) :
    CacheOutcome × CacheStore :=
  match store.ttl key moment with
  | (.number left, after) => (.flag (left ≠ -2), after)
  | other => other

def purgeExpired (moment : CacheMoment) (store : CacheStore) :
    CacheOutcome × CacheStore :=
  let remaining := live moment.first store.entries
  store.locked (.count (size store.entries - size remaining), store.withEntries remaining)

/-- The rows of `entries`, by key. -/
def listing (now : Nat) (entries : Dict String CacheEntry) :
    List (String × List UInt8 × String × Int) :=
  (entries.entries.map fun entry =>
      (entry.1, entry.2.value, entry.2.valueType, secondsLeft now entry.2.expireAt)).mergeSort
    fun left right => decide (left.1 ≤ right.1)

/-- `CacheStore::entries`. -/
def snapshot (moment : CacheMoment) (store : CacheStore) : CacheOutcome × CacheStore :=
  let remaining := live moment.first store.entries
  store.locked (.listing (listing moment.first remaining), store.withEntries remaining)

/-- One operation. -/
def perform (store : CacheStore) (event : CacheEvent) : CacheOutcome × CacheStore :=
  match event.call with
  | .set key value valueType ttl => store.set key value valueType ttl event.moment
  | .get key => store.get key event.moment
  | .delete key => store.delete key
  | .incr key delta ttl => store.incr key delta ttl event.moment
  | .expire key ttl => store.expire key ttl event.moment
  | .ttl key => store.ttl key event.moment
  | .exists key => store.exists key event.moment
  | .purgeExpired => store.purgeExpired event.moment
  | .entries => store.snapshot event.moment

def step (store : CacheStore) (event : CacheEvent) : Option CacheStore :=
  some (store.perform event).2

def answers : CacheStore → List CacheEvent → List CacheOutcome
  | _, [] => []
  | store, event :: later => (store.perform event).1 :: answers (store.perform event).2 later

end CacheStore

end CanglingBroker
