import CanglingBroker.Topic

/-!
# What filters match

The scan of `filter_matches` decides the inductive matching relation of MQTT 3.1.1 over the
levels of filter and topic, and `is_valid_subscribe_filter` accepts exactly the filters that
match some topic one can publish to.
-/

namespace CanglingBroker

/-! ## The matching relation -/

inductive LevelsMatch : List (List Char) → List (List Char) → Prop where
  | nil : LevelsMatch [] []
  | all (topics : List (List Char)) : LevelsMatch [['#']] topics
  | one {filters topics : List (List Char)} (level : List Char) :
      LevelsMatch filters topics → LevelsMatch (['+'] :: filters) (level :: topics)
  | same {filters topics : List (List Char)} {level : List Char} :
      level ≠ ['#'] → LevelsMatch filters topics → LevelsMatch (level :: filters) (level :: topics)

/-- Topics that start with `$` are out of reach of filters that start with a wildcard. -/
def HiddenFrom (filter topic : String) : Prop :=
  topic.toList.head? = some '$' ∧
    ∃ first, (levels filter).head? = some first ∧ (first.head? = some '#' ∨ first = ['+'])

variable {filters topics : List (List Char)} (filter : String)

theorem levelsMatch_of_matchLevels
    (matched : matchLevels filters topics = true) :
    LevelsMatch filters topics := by
  induction filters generalizing topics with
  | nil =>
    rw [List.isEmpty_iff.mp matched]
    exact .nil
  | cons filter _ ih =>
    unfold matchLevels at matched
    split at matched
    · next isAll =>
      rw [isAll, List.isEmpty_iff.mp matched]
      exact .all topics
    · next notAll =>
      cases topics with
      | nil => cases matched
      | cons topic =>
        dsimp only at matched
        split at matched
        · cases matched
        · next fits =>
          have later := ih matched
          by_cases isOne : filter = ['+']
          · rw [isOne]
            exact .one topic later
          · have equal : filter = topic := by
              by_contra different
              exact fits ⟨isOne, different⟩
            rw [← equal]
            exact .same notAll later

theorem matchLevels_of_levelsMatch
    (matched : LevelsMatch filters topics) :
    matchLevels filters topics = true := by
  induction matched with
  | nil => rfl
  | all => rfl
  | one _ _ ih =>
    rw [matchLevels, if_neg (by decide), if_neg fun both => both.1 rfl]
    exact ih
  | same notAll _ ih =>
    rw [matchLevels, if_neg notAll, if_neg fun both => both.2 rfl]
    exact ih

theorem matchLevels_iff (filters topics : List (List Char)) :
    matchLevels filters topics = true ↔ LevelsMatch filters topics :=
  ⟨levelsMatch_of_matchLevels, matchLevels_of_levelsMatch⟩

/-! ## The first level -/

theorem head?_levels (name : String) :
    (levels name).head? = some (name.toList.takeWhile (· ≠ '/')) := by
  unfold levels
  induction name.toList with
  | nil => rfl
  | cons first _ ih =>
    rw [List.splitOn, List.splitOnP_cons_eq_if_modifyHead, List.takeWhile_cons]
    by_cases slash : first = '/'
    · simp [slash]
    · rw [List.splitOn] at ih
      simp [slash, List.head?_modifyHead, ih]

theorem head?_takeWhile_level {first : Char} (notSlash : first ≠ '/') (characters : List Char) :
    (characters.takeWhile (· ≠ '/')).head? = some first ↔ [first].isPrefixOf characters = true := by
  cases characters with
  | nil => simp
  | cons head =>
    by_cases slash : head = '/'
    · simp [slash, notSlash]
    · simp only [ne_eq, slash, not_false_eq_true, decide_true, List.takeWhile_cons_of_pos,
        List.head?_cons, Option.some.injEq, List.isPrefixOf_cons_cons, List.isPrefixOf_nil_left,
        Bool.and_true, beq_iff_eq]
      exact eq_comm

theorem takeWhile_level_eq_singleton {first : Char} (notSlash : first ≠ '/')
    (characters : List Char) :
    characters.takeWhile (· ≠ '/') = [first] ↔
      characters = [first] ∨ [first, '/'].isPrefixOf characters = true := by
  cases characters with
  | nil => simp
  | cons head rest =>
    by_cases slash : head = '/'
    · simp [slash, notSlash, notSlash.symm]
    · cases rest with
      | nil => simp [slash]
      | cons second =>
        by_cases ends : second = '/'
        · simp only [ends, ne_eq, slash, not_false_eq_true, decide_true,
            List.takeWhile_cons_of_pos, not_true_eq_false, decide_false,
            Bool.false_eq_true, not_false_eq_true, List.takeWhile_cons_of_neg,
            List.cons.injEq, and_true, reduceCtorEq, and_false, List.isPrefixOf_cons_cons,
            BEq.rfl, List.isPrefixOf_nil_left, Bool.and_true, beq_iff_eq, false_or]
          exact eq_comm
        · simp [slash, ends, Ne.symm ends]

theorem wildcardAtRoot_iff : wildcardAtRoot filter = true ↔
    ∃ first, (levels filter).head? = some first ∧ (first.head? = some '#' ∨ first = ['+']) := by
  have named : ∀ character : Char,
      filter = String.ofList [character] ↔ filter.toList = [character] :=
    fun character => by rw [← String.toList_inj, String.toList_ofList]
  have isAll := head?_takeWhile_level (by decide : '#' ≠ '/') filter.toList
  have isOne := takeWhile_level_eq_singleton (by decide : '+' ≠ '/') filter.toList
  simp only [wildcardAtRoot, head?_levels, Option.some.injEq, exists_eq_left', isAll, isOne,
    Bool.or_eq_true, decide_eq_true_eq]
  constructor
  · rintro (((all | one) | one) | all)
    · rw [all]
      exact .inl rfl
    · exact .inr (.inl ((named '+').mp one))
    · exact .inr (.inr one)
    · exact .inl all
  · rintro (all | one | one)
    · exact .inr all
    · exact .inl (.inl (.inr ((named '+').mpr one)))
    · exact .inl (.inr one)

theorem hiddenFrom_iff (topic : String) :
    HiddenFrom filter topic ↔ (['$'].isPrefixOf topic.toList && wildcardAtRoot filter) = true := by
  rw [Bool.and_eq_true, wildcardAtRoot_iff, HiddenFrom]
  refine and_congr_left fun _ => ?_
  cases topic.toList with
  | nil => simp
  | cons =>
    rw [List.head?_cons, Option.some.injEq, List.isPrefixOf_cons_cons, List.isPrefixOf_nil_left,
      Bool.and_true, beq_iff_eq]
    exact eq_comm

theorem filterMatches_iff (topic : String) : filterMatches filter topic = true ↔
    filter ≠ "" ∧ topic ≠ "" ∧ ¬HiddenFrom filter topic ∧
      LevelsMatch (levels filter) (levels topic) := by
  rw [hiddenFrom_iff, ← matchLevels_iff]
  unfold filterMatches
  split
  · next empty =>
    refine iff_of_false Bool.false_ne_true fun both => ?_
    exact empty.elim both.1 both.2.1
  · next named =>
    split
    · next hidden => exact iff_of_false Bool.false_ne_true fun both => both.2.2.1 hidden
    · next visible =>
      rw [not_or] at named
      exact ⟨fun matched => ⟨named.1, named.2, visible, matched⟩, fun both => both.2.2.2⟩

/-- `filter_matches` is matching as MQTT defines it, and a filter without wildcards matches
its own topic alone. -/
theorem filterMatches_iff_levelsMatch (filter topic : String) : (filterMatches filter topic = true ↔
    filter ≠ "" ∧ topic ≠ "" ∧ ¬HiddenFrom filter topic ∧
      LevelsMatch (levels filter) (levels topic)) ∧
    (filter ≠ "" → isWildcardFilter filter = false →
      (filterMatches filter topic = true ↔ filter = topic)) := by
  refine ⟨filterMatches_iff filter topic, fun nonempty exact => ?_⟩
  refine ⟨eq_of_filterMatches exact, fun same => ?_⟩
  rw [← same]
  exact filterMatches_self exact nonempty

theorem filterMatches_iff_levelsMatch_sensor :
    "sensor/temp" ≠ "" ∧ isWildcardFilter "sensor/temp" = false ∧
      (filterMatches "sensor/temp" "sensor" = true ↔ "sensor/temp" = "sensor") :=
  ⟨by decide, by decide,
    (filterMatches_iff_levelsMatch "sensor/temp" "sensor").2 (by decide) (by decide)⟩

/-! ## Filters that can match -/

def PlainLevel (level : List Char) : Prop :=
  '#' ∉ level ∧ '+' ∉ level

/-- Levels that match levels without wildcard characters are accepted: a `#` that is not
the last level ends the scan without a match. -/
theorem validLevels_of_levelsMatch
    (matched : LevelsMatch filters topics) (plain : ∀ level ∈ topics, PlainLevel level) :
    validLevels filters = true := by
  induction matched with
  | nil => rfl
  | all => rfl
  | one _ _ ih => exact ih fun other member => plain other (.tail _ member)
  | @same filters topics level notAll _ ih =>
    obtain ⟨noHash, noPlus⟩ := plain level (.head _)
    have notOne : level ≠ ['+'] := by
      rintro rfl
      exact noPlus (.head _)
    have noWildcard : ¬(level.contains '#' || level.contains '+') = true := by
      simp [noHash, noPlus]
    rw [validLevels, if_neg notAll, if_neg notOne, if_neg noWildcard]
    exact ih fun other member => plain other (.tail _ member)

/-- What stands for a level in a topic that the filter matches. -/
def sampleLevel (level : List Char) : List Char :=
  if level = ['#'] ∨ level = ['+'] then ['a'] else level

def sampleTopic (filter : String) : String :=
  String.ofList (['/'].intercalate ((levels filter).map sampleLevel))

theorem levelsMatch_sampleLevel : ∀ {filters : List (List Char)}, validLevels filters = true →
    LevelsMatch filters (filters.map sampleLevel)
  | [], _ => .nil
  | level :: rest, valid => by
    unfold validLevels at valid
    split at valid
    · next isAll =>
      rw [isAll, List.isEmpty_iff.mp valid]
      exact .all _
    · next notAll =>
      split at valid
      · next isOne =>
        rw [isOne]
        exact .one _ (levelsMatch_sampleLevel valid)
      · next notOne =>
        split at valid
        · cases valid
        · rw [List.map_cons, sampleLevel, if_neg (not_or.mpr ⟨notAll, notOne⟩)]
          exact .same notAll (levelsMatch_sampleLevel valid)

/-- What stands for an accepted level has no wildcard character. -/
theorem plainLevel_sampleLevel : ∀ {filters : List (List Char)}, validLevels filters = true →
    ∀ level ∈ filters, PlainLevel (sampleLevel level)
  | [], _, _, member => absurd member List.not_mem_nil
  | first :: rest, valid, level, member => by
    have sampled : first = ['#'] ∨ first = ['+'] → PlainLevel (sampleLevel first) := by
      intro wildcard
      rw [sampleLevel, if_pos wildcard]
      exact ⟨by decide, by decide⟩
    unfold validLevels at valid
    split at valid
    · next isAll =>
      rw [List.isEmpty_iff.mp valid] at member
      rw [List.mem_singleton.mp member]
      exact sampled (.inl isAll)
    · next notAll =>
      split at valid
      · next isOne =>
        rcases List.mem_cons.mp member with rfl | later
        · exact sampled (.inr isOne)
        · exact plainLevel_sampleLevel valid level later
      · next notOne =>
        split at valid
        · cases valid
        · next noWildcard =>
          rcases List.mem_cons.mp member with rfl | later
          · rw [sampleLevel, if_neg (not_or.mpr ⟨notAll, notOne⟩)]
            simpa [PlainLevel] using noWildcard
          · exact plainLevel_sampleLevel valid level later

theorem slash_not_mem_of_mem_splitOn (characters : List Char) :
    ∀ level ∈ characters.splitOn '/', '/' ∉ level := by
  induction characters with
  | nil => simp
  | cons _ rest ih =>
    intro level member
    rw [List.splitOn, List.splitOnP_cons_eq_if_modifyHead] at member
    rw [List.splitOn] at ih
    split at member
    · rcases List.mem_cons.mp member with rfl | later
      · exact List.not_mem_nil
      · exact ih level later
    · next notSlash =>
      cases split : rest.splitOnP (· == '/') with
      | nil => exact absurd split (List.splitOnP_ne_nil _ _)
      | cons head =>
        rw [split, List.modifyHead_cons] at member
        rw [split] at ih
        rcases List.mem_cons.mp member with rfl | later
        · intro inside
          rcases List.mem_cons.mp inside with same | deeper
          · exact notSlash (by simp [← same])
          · exact ih head (.head _) deeper
        · exact ih level (.tail _ later)

theorem levels_sampleTopic :
    levels (sampleTopic filter) = (levels filter).map sampleLevel := by
  rw [sampleTopic, levels, String.toList_ofList]
  refine List.splitOn_intercalate '/' (fun level member => ?_) ?_
  · obtain ⟨original, listed, rfl⟩ := List.mem_map.mp member
    unfold sampleLevel
    split
    · decide
    · exact slash_not_mem_of_mem_splitOn _ original listed
  · exact fun empty => List.splitOn_ne_nil _ _ (List.map_eq_nil_iff.mp empty)

theorem mem_splitOn_of_mem {characters : List Char} {character : Char} : character ∈ characters →
    character = '/' ∨ ∃ level ∈ characters.splitOn '/', character ∈ level := by
  induction characters with
  | nil => exact fun member => absurd member List.not_mem_nil
  | cons first rest ih =>
    intro member
    rw [List.splitOn] at ih
    rw [List.splitOn, List.splitOnP_cons_eq_if_modifyHead]
    by_cases slash : first = '/'
    · rcases List.mem_cons.mp member with same | later
      · exact .inl (same.trans slash)
      · rcases ih later with same | ⟨level, listed, inside⟩
        · exact .inl same
        · refine .inr ⟨level, ?_, inside⟩
          rw [if_pos (beq_iff_eq.mpr slash)]
          exact .tail _ listed
    · rw [if_neg (fun isSlash => slash (beq_iff_eq.mp isSlash))]
      cases split : rest.splitOnP (· == '/') with
      | nil => exact absurd split (List.splitOnP_ne_nil _ _)
      | cons head =>
        rw [split] at ih
        rw [List.modifyHead_cons]
        rcases List.mem_cons.mp member with rfl | later
        · exact .inr ⟨character :: head, .head _, .head _⟩
        · rcases ih later with same | ⟨level, listed, inside⟩
          · exact .inl same
          · rcases List.mem_cons.mp listed with rfl | deeper
            · exact .inr ⟨first :: level, .head _, .tail _ inside⟩
            · exact .inr ⟨level, .tail _ deeper, inside⟩

variable {filter : String}

theorem mem_sampleTopic {character : Char}
    (member : character ∈ (sampleTopic filter).toList) :
    character = '/' ∨ ∃ level ∈ levels filter, character ∈ sampleLevel level := by
  rcases mem_splitOn_of_mem member with slash | ⟨level, listed, inside⟩
  · exact .inl slash
  · have sampled : level ∈ (levels filter).map sampleLevel := by
      rw [← levels_sampleTopic]
      exact listed
    obtain ⟨original, isLevel, rfl⟩ := List.mem_map.mp sampled
    exact .inr ⟨original, isLevel, inside⟩

theorem sampleTopic_ne_empty (nonempty : filter ≠ "") :
    sampleTopic filter ≠ "" := by
  intro empty
  have sampled : (levels filter).map sampleLevel = [[]] := by
    rw [← levels_sampleTopic, empty]
    rfl
  obtain ⟨level, isLevel, noLevel⟩ := List.map_eq_singleton_iff.mp sampled
  have blank : level = [] := by
    unfold sampleLevel at noLevel
    split at noLevel
    · cases noLevel
    · exact noLevel
  rw [blank] at isLevel
  exact nonempty (levels_injective isLevel)

theorem isValidPublishTopic_sampleTopic (nonempty : filter ≠ "")
    (noNul : '\x00' ∉ filter.toList) (valid : validLevels (levels filter) = true) :
    isValidPublishTopic (sampleTopic filter) = true := by
  have plain : '#' ∉ (sampleTopic filter).toList ∧ '+' ∉ (sampleTopic filter).toList := by
    constructor
    · intro member
      rcases mem_sampleTopic member with slash | ⟨level, listed, inside⟩
      · exact absurd slash (by decide)
      · exact (plainLevel_sampleLevel valid level listed).1 inside
    · intro member
      rcases mem_sampleTopic member with slash | ⟨level, listed, inside⟩
      · exact absurd slash (by decide)
      · exact (plainLevel_sampleLevel valid level listed).2 inside
  have stillNoNul : '\x00' ∉ (sampleTopic filter).toList := by
    intro member
    rcases mem_sampleTopic member with slash | ⟨level, listed, inside⟩
    · exact absurd slash (by decide)
    · unfold sampleLevel at inside
      split at inside
      · exact absurd inside (by decide)
      · exact noNul (mem_of_mem_levels listed inside)
  simp [isValidPublishTopic, sampleTopic_ne_empty nonempty, plain.1, plain.2, stillNoNul]

/-- Where the filter starts with a wildcard, the sample does not start with `$`. -/
theorem not_hiddenFrom_sampleTopic (valid : validLevels (levels filter) = true) :
    ¬HiddenFrom filter (sampleTopic filter) := by
  rintro ⟨dollar, first, isFirst, wildcard⟩
  have listed : first ∈ levels filter := List.mem_of_head? isFirst
  have sampled : sampleLevel first = ['a'] := by
    unfold sampleLevel
    split
    · rfl
    · next notWildcard =>
      have plain := plainLevel_sampleLevel valid first listed
      rw [sampleLevel, if_neg notWildcard] at plain
      rcases wildcard with hash | plus
      · exact absurd (List.mem_of_head? hash) plain.1
      · exact absurd (.inr plus) notWildcard
  have firstOfSample : (levels (sampleTopic filter)).head? = some ['a'] := by
    rw [levels_sampleTopic, List.head?_map, isFirst, Option.map_some, sampled]
  rw [head?_levels, Option.some.injEq] at firstOfSample
  have starts :=
    (head?_takeWhile_level (by decide : 'a' ≠ '/') (sampleTopic filter).toList).mp
      (by rw [firstOfSample]; rfl)
  cases characters : (sampleTopic filter).toList with
  | nil =>
    rw [characters] at dollar
    cases dollar
  | cons =>
    rw [characters] at dollar starts
    cases dollar
    exact absurd starts (by simp)

/-- A filter is accepted exactly when it matches some topic that can be published to. -/
theorem isValidSubscribeFilter_iff_matches (filter : String) (nonempty : filter ≠ "")
    (noNul : '\x00' ∉ filter.toList) :
    isValidSubscribeFilter filter = true ↔
      ∃ topic, isValidPublishTopic topic = true ∧ filterMatches filter topic = true := by
  have scanned : isValidSubscribeFilter filter = validLevels (levels filter) := by
    unfold isValidSubscribeFilter
    exact if_neg (by simp [nonempty, noNul])
  rw [scanned]
  constructor
  · intro valid
    refine ⟨sampleTopic filter, isValidPublishTopic_sampleTopic nonempty noNul valid, ?_⟩
    refine (filterMatches_iff _ _).mpr ⟨nonempty, sampleTopic_ne_empty nonempty, ?_, ?_⟩
    · exact not_hiddenFrom_sampleTopic valid
    · rw [levels_sampleTopic]
      exact levelsMatch_sampleLevel valid
  · rintro ⟨topic, published, matched⟩
    obtain ⟨_, _, _, levelsMatched⟩ := (filterMatches_iff _ _).mp matched
    refine validLevels_of_levelsMatch levelsMatched fun level listed => ?_
    simp only [isValidPublishTopic, Bool.and_eq_true, Bool.not_eq_true', List.contains_eq_mem,
      decide_eq_false_iff_not] at published
    exact ⟨fun inside => published.2 (mem_of_mem_levels listed inside),
      fun inside => published.1.2 (mem_of_mem_levels listed inside)⟩

theorem isValidSubscribeFilter_iff_matches_level : "+/level/#" ≠ "" ∧ '\x00' ∉ "+/level/#".toList ∧
    (isValidSubscribeFilter "+/level/#" = true ↔
      ∃ topic, isValidPublishTopic topic = true ∧ filterMatches "+/level/#" topic = true) :=
  ⟨by decide, by decide, isValidSubscribeFilter_iff_matches "+/level/#" (by decide) (by decide)⟩

end CanglingBroker
