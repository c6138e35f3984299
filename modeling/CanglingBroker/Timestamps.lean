import CanglingBroker.Database.Calls
import CanglingBroker.Foundation.Collation
import CanglingBroker.Lock.Store

/-!
# Timestamp columns

The tables keep instants as texts, and the statements compare these texts.  In the model
the rows hold the instants themselves; here the two readings of every test are compared.
-/

namespace CanglingBroker

open Foundation

/-- What a timestamp column stores of an instant. -/
def timestamp (instant : Nat) : String :=
  String.ofList (rfc3339 instant)

/-- `left < right` on texts; `left > right` is written the other way round. -/
def textBefore (left right : String) : Bool :=
  collate left right = .lt

/-- `left <= right` on texts. -/
def textAtMost (left right : String) : Bool :=
  collate left right ≠ .gt

theorem timestamp_lt {earlier later : Nat} (before : earlier < later)
    (inRange : later < yearTenThousand) : timestamp earlier < timestamp later := by
  rw [String.lt_iff_toList_lt, timestamp, timestamp, String.toList_ofList, String.toList_ofList]
  exact rfc3339_lt before inRange

section Range

variable {first second : Nat}

theorem collate_timestamp (firstInRange : first < yearTenThousand)
    (secondInRange : second < yearTenThousand) :
    collate (timestamp first) (timestamp second) = compare first second := by
  rw [collate_eq_compare]
  rcases lt_trichotomy first second with before | rfl | after
  · rw [compare_lt_iff_lt.mpr (timestamp_lt before secondInRange), Nat.compare_eq_lt.mpr before]
  · rw [Std.ReflOrd.compare_self, Std.ReflOrd.compare_self]
  · rw [compare_gt_iff_gt.mpr (timestamp_lt after firstInRange), Nat.compare_eq_gt.mpr after]

theorem textBefore_timestamp (firstInRange : first < yearTenThousand)
    (secondInRange : second < yearTenThousand) :
    textBefore (timestamp first) (timestamp second) = decide (first < second) := by
  rw [textBefore, collate_timestamp firstInRange secondInRange]
  exact decide_eq_decide.mpr Nat.compare_eq_lt

theorem textAtMost_timestamp (firstInRange : first < yearTenThousand)
    (secondInRange : second < yearTenThousand) :
    textAtMost (timestamp first) (timestamp second) = decide (first ≤ second) := by
  rw [textAtMost, collate_timestamp firstInRange secondInRange]
  exact decide_eq_decide.mpr Nat.compare_ne_gt

/-- The order in which `claim_batch_for_topic` sorts a batch, on the texts it compares. -/
theorem ClaimedMessage.before_iff_collate {left right : ClaimedMessage}
    (leftInRange : left.createdAt < yearTenThousand)
    (rightInRange : right.createdAt < yearTenThousand) :
    left.before right ↔
      (collate (timestamp left.createdAt) (timestamp right.createdAt)).then
        (collate left.id right.id) ≠ .gt := by
  rw [collate_timestamp leftInRange rightInRange, collate_eq_compare, ne_eq, Ordering.then_eq_gt,
    Nat.compare_eq_gt, Nat.compare_eq_eq, compare_gt_iff_gt, ClaimedMessage.before]
  simp only [not_or, not_and, not_lt]
  constructor
  · rintro (earlier | ⟨same, ids⟩)
    · exact ⟨Nat.le_of_lt earlier, fun same => absurd same (Nat.ne_of_lt earlier)⟩
    · exact ⟨Nat.le_of_eq same, fun _ => ids⟩
  · rintro ⟨notLater, ids⟩
    exact (Nat.lt_or_eq_of_le notLater).imp_right fun same => ⟨same, ids same⟩

/-- Two instants before the year 10000 compare as their texts do, in SQLite and in Rust.
So each test of a statement on a timestamp column, which compares the text of `first` in
the column with the text of `second` that is bound, is the test of the model. -/
theorem timestamps_compare (firstInRange : first < yearTenThousand)
    (secondInRange : second < yearTenThousand) :
    collate (timestamp first) (timestamp second) = compare first second ∧
      (∀ row : MessageRow, row.nextAttemptAt = first →
        row.ready second =
            (row.status = .pending && textAtMost (timestamp first) (timestamp second)) ∧
          (∀ picked, (Update.reclaim second).guard picked row =
            (row.status = .processing && textAtMost (timestamp first) (timestamp second))) ∧
          ∀ picked visibleAgain id lease,
            (Update.renew visibleAgain id lease second).guard picked row =
              (row.held id lease && textBefore (timestamp second) (timestamp first))) ∧
      (∀ row : MessageRow, row.createdAt = first →
        (Removal.olderThan second).guard row = textBefore (timestamp first) (timestamp second)) ∧
      (∀ row : MessageRow, row.deliveredAt = some first →
        (Removal.deliveredBefore second).guard row =
          (row.status = .delivered && textBefore (timestamp first) (timestamp second))) ∧
      (∀ left right : ClaimedMessage, left.createdAt = first → right.createdAt = second →
        (left.before right ↔
          (collate (timestamp first) (timestamp second)).then (collate left.id right.id) ≠ .gt)) ∧
      (∀ consumer : Consumer, consumer.lastSeenAt = first →
        decide (consumer.lastSeenAt < second) = textBefore (timestamp first) (timestamp second)) ∧
      (∀ stats : TopicStats, stats.lastSeenAt = some first →
        stats.lastSeenAt.any (· < second) = textBefore (timestamp first) (timestamp second)) ∧
      ∀ row : LockRow, row.expireAt = first →
        row.expired second = textAtMost (timestamp first) (timestamp second) := by
  have before := textBefore_timestamp firstInRange secondInRange
  have atMost := textAtMost_timestamp firstInRange secondInRange
  refine ⟨collate_timestamp firstInRange secondInRange, fun row next => ⟨?_, ?_, ?_⟩,
    fun row created => ?_, fun row delivered => ?_, fun left right created later => ?_,
    fun consumer seen => ?_, fun stats seen => ?_, fun row expires => ?_⟩
  · rw [MessageRow.ready, atMost, next]
  · intro picked
    rw [Update.guard, atMost, next]
  · intro picked visibleAgain id lease
    rw [Update.guard, textBefore_timestamp secondInRange firstInRange, next]
  · rw [Removal.guard, before, created]
  · rw [Removal.guard, before, delivered, Option.any_some]
  · subst created later
    exact ClaimedMessage.before_iff_collate firstInRange secondInRange
  · rw [before, seen]
  · rw [before, seen, Option.any_some]
  · rw [LockRow.expired, atMost, expires, decide_eq_decide,
      rfc3339_lt_iff secondInRange firstInRange]
    exact Nat.not_lt

end Range

/-- The last second before the year 10000: the text without a fraction is the smaller one. -/
theorem timestamps_compare_lastSecond :
    timestamp (yearTenThousand - 1000000000) = "9999-12-31T23:59:59+00:00" ∧
      timestamp (yearTenThousand - 1) = "9999-12-31T23:59:59.999999999+00:00" ∧
      collate (timestamp (yearTenThousand - 1000000000)) (timestamp (yearTenThousand - 1)) =
        .lt := by
  refine ⟨by decide +kernel, by decide +kernel, ?_⟩
  exact (timestamps_compare (by decide) (by decide)).1.trans (Nat.compare_eq_lt.mpr (by decide))

end CanglingBroker
