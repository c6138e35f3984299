import CanglingBroker.Foundation.Run

/-!
# Topics, filters and their shards

Topic names and filters are compared level by level: a level is what stands
between two slashes.  `+` stands for one level and a closing `#` for all
remaining ones.  The name of a topic also decides the shard its messages live
in, and the identifier of a message repeats that shard.
-/

namespace CanglingBroker

/-! ## Filters -/

/-- The slash-separated levels of a name; an empty name has one empty level. -/
def levels (name : String) : List (List Char) :=
  name.toList.splitOn '/'

/-- The scan of `filter_matches`.  Both indices advance together, so it walks
the two remaining level lists. -/
def matchLevels : List (List Char) → List (List Char) → Bool
  | [], topics => topics.isEmpty
  | filter :: filters, topics =>
    if filter = ['#'] then
      filters.isEmpty
    else
      match topics with
      | [] => false
      | topic :: rest =>
        if filter ≠ ['+'] ∧ filter ≠ topic then
          false
        else
          matchLevels filters rest

def wildcardAtRoot (filter : String) : Bool :=
  filter = "#" || filter = "+" ||
    ['+', '/'].isPrefixOf filter.toList || ['#'].isPrefixOf filter.toList

/-- MQTT 3.1.1 topic-filter matching. -/
def filterMatches (filter topic : String) : Bool :=
  if filter = "" ∨ topic = "" then
    false
  else if ['$'].isPrefixOf topic.toList && wildcardAtRoot filter then
    false
  else
    matchLevels (levels filter) (levels topic)

def isValidPublishTopic (topic : String) : Bool :=
  topic ≠ "" && !topic.toList.contains '\x00' &&
    !topic.toList.contains '+' && !topic.toList.contains '#'

/-- The scan of `is_valid_subscribe_filter` over the filter's levels. -/
def validLevels : List (List Char) → Bool
  | [] => true
  | part :: rest =>
    if part = ['#'] then
      rest.isEmpty
    else if part = ['+'] then
      validLevels rest
    else if part.contains '#' || part.contains '+' then
      false
    else
      validLevels rest

def isValidSubscribeFilter (filter : String) : Bool :=
  if filter = "" ∨ filter.toList.contains '\x00' then
    false
  else
    validLevels (levels filter)

def isWildcardFilter (filter : String) : Bool :=
  filter.toList.contains '+' || filter.toList.contains '#'

theorem mem_intersperse {Item : Type} {item : Item} (separator : Item) :
    ∀ {items : List Item}, item ∈ items → item ∈ items.intersperse separator
  | [_], member => member
  | first :: second :: rest, member => by
    rw [List.intersperse_cons_cons]
    rcases List.mem_cons.mp member with rfl | later
    · exact .head _
    · exact .tail _ (.tail _ (mem_intersperse separator later))

theorem mem_of_mem_levels {name : String} {level : List Char} {character : Char}
    (isLevel : level ∈ levels name) (member : character ∈ level) :
    character ∈ name.toList := by
  have joined : ['/'].intercalate (levels name) = name.toList := List.intercalate_splitOn '/'
  rw [← joined, List.intercalate]
  exact List.mem_flatten.mpr ⟨level, mem_intersperse ['/'] isLevel, member⟩

theorem levels_injective : Function.Injective levels := by
  intro name other same
  have joined : ['/'].intercalate (levels name) = ['/'].intercalate (levels other) :=
    congrArg _ same
  rw [levels, levels, List.intercalate_splitOn, List.intercalate_splitOn] at joined
  exact String.toList_inj.mp joined

theorem eq_of_matchLevels {filters topics : List (List Char)}
    (exact : ∀ level ∈ filters, level ≠ ['#'] ∧ level ≠ ['+'])
    (matched : matchLevels filters topics = true) :
    filters = topics := by
  induction filters generalizing topics with
  | nil => exact (List.isEmpty_iff.mp matched).symm
  | cons filter _ ih =>
    obtain ⟨notAll, notOne⟩ := exact filter (.head _)
    cases topics with
    | nil =>
      rw [matchLevels, if_neg notAll] at matched
      cases matched
    | cons topic =>
      rw [matchLevels, if_neg notAll] at matched
      split at matched
      · cases matched
      · next same =>
        have equal : filter = topic := by
          by_contra different
          exact same ⟨notOne, different⟩
        rw [equal, ih (fun level member => exact level (List.mem_cons_of_mem _ member)) matched]

variable {filter : String}

theorem eq_of_filterMatches {topic : String} (exact : isWildcardFilter filter = false)
    (matched : filterMatches filter topic = true) :
    filter = topic := by
  simp only [isWildcardFilter, Bool.or_eq_false_iff, List.contains_eq_mem,
    decide_eq_false_iff_not] at exact
  simp only [filterMatches] at matched
  split at matched
  · cases matched
  · split at matched
    · cases matched
    · refine levels_injective (eq_of_matchLevels (fun level member => ?_) matched)
      constructor
      · rintro rfl
        exact exact.2 (mem_of_mem_levels member (.head _))
      · rintro rfl
        exact exact.1 (mem_of_mem_levels member (.head _))

theorem matchLevels_self {filters : List (List Char)} (exact : ∀ level ∈ filters, level ≠ ['#']) :
    matchLevels filters filters = true := by
  induction filters with
  | nil => rfl
  | cons filter _ ih =>
    rw [matchLevels, if_neg (exact filter List.mem_cons_self), if_neg (fun both => both.2 rfl)]
    exact ih fun level member => exact level (.tail _ member)

theorem isWildcardFilter_of_wildcardAtRoot (atRoot : wildcardAtRoot filter = true) :
    isWildcardFilter filter = true := by
  have first : ∀ {head : Char} {rest : List Char},
      (head :: rest).isPrefixOf filter.toList = true → head ∈ filter.toList :=
    fun starts => (List.isPrefixOf_iff_prefix.mp starts).subset (.head _)
  simp only [wildcardAtRoot, Bool.or_eq_true, decide_eq_true_eq] at atRoot
  simp only [isWildcardFilter, Bool.or_eq_true, List.contains_eq_mem, decide_eq_true_eq]
  rcases atRoot with ((rfl | rfl) | one) | all
  · exact .inr (by decide)
  · exact .inl (by decide)
  · exact .inl (first one)
  · exact .inr (first all)

theorem filterMatches_self (exact : isWildcardFilter filter = false) (nonempty : filter ≠ "") :
    filterMatches filter filter = true := by
  have notAtRoot : wildcardAtRoot filter = false := by
    rw [Bool.eq_false_iff]
    intro atRoot
    rw [isWildcardFilter_of_wildcardAtRoot atRoot] at exact
    cases exact
  have named : ¬ (filter = "" ∨ filter = "") := fun empty => empty.elim nonempty nonempty
  rw [filterMatches, if_neg named, notAtRoot, Bool.and_false, if_neg Bool.false_ne_true]
  refine matchLevels_self fun level member => ?_
  rintro rfl
  simp only [isWildcardFilter, Bool.or_eq_false_iff, List.contains_eq_mem,
    decide_eq_false_iff_not] at exact
  exact exact.2 (mem_of_mem_levels member (.head _))

/-! ## Shards -/

/-- `MESSAGE_SHARDS`: the number of message databases. -/
abbrev messageShards : Nat := 16

abbrev ShardIndex : Type := Fin messageShards

instance neZero_messageShards : NeZero messageShards :=
  ⟨by decide⟩

def fnvRound (hash : UInt64) (byte : UInt8) : UInt64 :=
  (hash ^^^ byte.toUInt64) * 0x100000001b3

/-- The shard of a topic: its 64-bit FNV-1a hash modulo the number of shards. -/
def topicShard (topic : String) : ShardIndex :=
  Fin.ofNat messageShards (topic.toUTF8.data.toList.foldl fnvRound 0xcbf29ce484222325).toNat

def digitOf (digit : Char) : Option Nat :=
  if digit.isDigit then some (digit.toNat - '0'.toNat) else none

/-- The two characters after the leading `s`, read as `usize`: two digits, or a
plus sign and a digit. -/
def shardNumber (tens units : Char) : Option Nat :=
  if tens = '+' then
    digitOf units
  else
    match digitOf tens, digitOf units with
    | some high, some low => some (10 * high + low)
    | _, _ => none

/-- The shard a message identifier names, if it has the form `sNN-…`. -/
def messageIdShard (id : String) : Option ShardIndex :=
  match id.toList with
  | 's' :: tens :: units :: '-' :: _ =>
    match shardNumber tens units with
    | some shard =>
      if bounded : shard < messageShards then
        some ⟨shard, bounded⟩
      else
        none
    | none => none
  | _ => none

def twoDigits (number : Nat) : String :=
  String.ofList [Nat.digitChar (number / 10), Nat.digitChar (number % 10)]

/-- `prefixed_message_id`, with the identifier drawn for it. -/
def prefixedMessageId (shard : ShardIndex) (uuid : String) : String :=
  "s" ++ twoDigits shard ++ "-" ++ uuid

/-- `new_message_id`: the identifier routes back to the shard of the topic. -/
def newMessageId (topic uuid : String) : String :=
  prefixedMessageId (topicShard topic) uuid

theorem shardNumber_twoDigits (shard : ShardIndex) :
    shardNumber (Nat.digitChar (shard.val / 10)) (Nat.digitChar (shard.val % 10)) =
      some shard.val := by
  revert shard
  decide

theorem messageIdShard_prefixedMessageId (shard : ShardIndex) (uuid : String) :
    messageIdShard (prefixedMessageId shard uuid) = some shard := by
  have shape : (prefixedMessageId shard uuid).toList = 's' :: Nat.digitChar (shard.val / 10) ::
      Nat.digitChar (shard.val % 10) :: '-' :: uuid.toList := by
    simp [prefixedMessageId, twoDigits]
  simp only [messageIdShard, shape, shardNumber_twoDigits]
  simp

example : filterMatches "sensor/#" "sensor/a/b" = true := by decide

example : filterMatches "+/load" "$SYS/load" = false := by decide

end CanglingBroker
