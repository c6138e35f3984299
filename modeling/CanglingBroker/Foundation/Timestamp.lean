import CanglingBroker.Foundation.Run

/-!
# Instants and their texts

An instant is a number of nanoseconds since the start of the year 0 of the proleptic
Gregorian calendar.  `rfc3339` writes it the way timestamp libraries do; `rfc3339_lt_iff`
says that up to the year 9999 the order of the texts is the order of the instants.
-/

namespace CanglingBroker
namespace Foundation

/-! ## Comparing texts -/

section Text

variable {left right : List Char}

theorem append_lt_append_iff (sameLength : left.length = right.length) (first second : List Char) :
    left ++ first < right ++ second ↔ left < right ∨ (left = right ∧ first < second) := by
  induction left generalizing right with
  | nil =>
    have empty : right = [] := List.eq_nil_of_length_eq_zero sameLength.symm
    subst empty
    simp
  | cons _ tail ih =>
    cases right with
    | nil => simp at sameLength
    | cons _ rest =>
      have tails : tail.length = rest.length := by
        simpa using sameLength
      simp only [List.cons_append, List.cons_lt_cons_iff, ih tails, List.cons.injEq]
      tauto

def digits : Nat → Nat → List Char
  | 0, _ => []
  | width + 1, number => digits width (number / 10) ++ [Char.ofNat (48 + number % 10)]

@[simp]
theorem length_digits : ∀ width number : Nat, (digits width number).length = width
  | 0, _ => rfl
  | width + 1, number => by
    simp [digits, length_digits width]

theorem digit_lt_iff : ∀ first < 10, ∀ second < 10,
    (Char.ofNat (48 + first) < Char.ofNat (48 + second) ↔ first < second) := by
  decide

theorem digit_inj : ∀ first < 10, ∀ second < 10,
    (Char.ofNat (48 + first) = Char.ofNat (48 + second) ↔ first = second) := by
  decide

/-- Texts of one width are equal, and in order, as their numbers are. -/
theorem digits_order : ∀ (width : Nat) {first second : Nat},
    first < 10 ^ width → second < 10 ^ width →
      (digits width first = digits width second ↔ first = second) ∧
        (digits width first < digits width second ↔ first < second)
  | 0, first, second, small, smallToo => by
    simp only [pow_zero, Nat.lt_one_iff] at small smallToo
    simp [digits, small, smallToo]
  | width + 1, first, second, small, smallToo => by
    rw [pow_succ] at small smallToo
    have fronts := digits_order width (Nat.div_lt_of_lt_mul (by omega) : first / 10 < 10 ^ width)
      (Nat.div_lt_of_lt_mul (by omega) : second / 10 < 10 ^ width)
    have low := Nat.mod_lt first (by decide : 10 > 0)
    have lowToo := Nat.mod_lt second (by decide : 10 > 0)
    simp only [digits]
    constructor
    · rw [List.append_singleton_inj, fronts.1, digit_inj _ low _ lowToo]
      omega
    · rw [append_lt_append_iff (by simp), fronts.2, fronts.1, List.cons_lt_cons_iff,
        digit_lt_iff _ low _ lowToo]
      simp only [List.lt_irrefl, and_false, or_false]
      omega

theorem field_lt_iff (width : Nat) {first second : Nat} (small : first < 10 ^ width)
    (smallToo : second < 10 ^ width) (later otherLater : List Char) :
    digits width first ++ later < digits width second ++ otherLater ↔
      first < second ∨ (first = second ∧ later < otherLater) := by
  rw [append_lt_append_iff (by simp), (digits_order width small smallToo).2,
    (digits_order width small smallToo).1]

theorem separator_lt_iff (mark : Char) (later otherLater : List Char) :
    mark :: later < mark :: otherLater ↔ later < otherLater := by
  simp

end Text

/-! ## The calendar -/

def isLeap (year : Nat) : Bool :=
  year % 4 = 0 && (year % 100 ≠ 0 || year % 400 = 0)

/-- The days from the start of the year 0 to the start of a year. -/
def daysBeforeYear (year : Nat) : Nat :=
  365 * year + (year + 3) / 4 + (year + 399) / 400 - (year + 99) / 100

/-- One year on, one more multiple is passed exactly after a multiple. -/
theorem roundedUp_succ (year period : Nat) (positive : 0 < period) :
    (year + 1 + (period - 1)) / period =
      (year + (period - 1)) / period + if year % period = 0 then 1 else 0 := by
  have whole := Nat.div_add_mod year period
  have small := Nat.mod_lt year positive
  have next : year + 1 + (period - 1) = year + period := by omega
  rw [next, Nat.add_div_right year positive]
  split
  · next multiple =>
    have current : (year + (period - 1)) / period = year / period := by
      refine Nat.div_eq_of_lt_le ?_ ?_
      · rw [Nat.mul_comm]
        omega
      · rw [Nat.succ_mul, Nat.mul_comm]
        omega
    omega
  · next inBetween =>
    have current : (year + (period - 1)) / period = year / period + 1 := by
      refine Nat.div_eq_of_lt_le ?_ ?_
      · rw [Nat.succ_mul, Nat.mul_comm]
        omega
      · rw [Nat.succ_mul, Nat.succ_mul, Nat.mul_comm]
        omega
    omega

theorem daysBeforeYear_succ (year : Nat) :
    daysBeforeYear (year + 1) = daysBeforeYear year + if isLeap year then 366 else 365 := by
  have fours := roundedUp_succ year 4 (by decide)
  have hundreds := roundedUp_succ year 100 (by decide)
  have fourHundreds := roundedUp_succ year 400 (by decide)
  have enough : (year + 99) / 100 ≤ (year + 3) / 4 := by omega
  have fourOfHundred : year % 100 = 0 → year % 4 = 0 := by omega
  have hundredOfFourHundred : year % 400 = 0 → year % 100 = 0 := by omega
  unfold daysBeforeYear isLeap
  simp only [Nat.reduceSub] at fours hundreds fourHundreds
  rw [fours, hundreds, fourHundreds]
  by_cases four : year % 4 = 0
  · by_cases hundred : year % 100 = 0
    · by_cases fourHundred : year % 400 = 0
      · simp only [four, hundred, fourHundred, if_true, decide_true, ne_eq,
          not_true_eq_false, decide_false, Bool.false_or, Bool.and_self]
        omega
      · simp only [four, hundred, fourHundred, if_true, if_false, decide_true, ne_eq,
          not_true_eq_false, decide_false, Bool.false_or, Bool.and_false,
          Bool.false_eq_true]
        omega
    · have notFourHundred : ¬ year % 400 = 0 := fun multiple =>
        hundred (hundredOfFourHundred multiple)
      simp only [four, hundred, notFourHundred, if_true, if_false, decide_true, ne_eq,
        not_false_eq_true, Bool.true_or, Bool.and_self]
      omega
  · have notHundred : ¬ year % 100 = 0 := fun multiple =>
      four (fourOfHundred multiple)
    have notFourHundred : ¬ year % 400 = 0 := fun multiple =>
      notHundred (hundredOfFourHundred multiple)
    simp only [four, notHundred, notFourHundred, if_false, decide_false,
      Bool.false_and, Bool.false_eq_true]
    omega

theorem daysBeforeYear_strictMono : StrictMono daysBeforeYear := by
  refine strictMono_nat_of_lt_succ fun year => ?_
  rw [daysBeforeYear_succ]
  split <;> omega

/-- The year a day falls in: an estimate from the mean length of a year, which is
off by one at most. -/
def yearOf (day : Nat) : Nat :=
  let guess := day * 400 / 146097
  if daysBeforeYear (guess + 1) ≤ day then guess + 1
  else if day < daysBeforeYear guess then guess - 1
  else guess

theorem yearOf_spec (day : Nat) :
    daysBeforeYear (yearOf day) ≤ day ∧ day < daysBeforeYear (yearOf day + 1) := by
  unfold yearOf
  dsimp only
  generalize guessEq : day * 400 / 146097 = guess
  unfold daysBeforeYear
  split
  · omega
  · split
    · cases guess with
      | zero => omega
      | succ =>
        simp only [Nat.add_sub_cancel]
        omega
    · omega

theorem yearOf_mono : Monotone yearOf := by
  intro earlier later ordered
  by_contra smaller
  have next : yearOf later + 1 ≤ yearOf earlier := Nat.lt_of_not_le smaller
  have starts := daysBeforeYear_strictMono.monotone next
  have first := (yearOf_spec earlier).1
  have second := (yearOf_spec later).2
  omega

def monthLengths (leap : Bool) : List Nat :=
  [31, if leap then 29 else 28, 31, 30, 31, 30, 31, 31, 30, 31, 30, 31]

/-- Months passed and days into the month, on a day of the year. -/
def splitMonths : List Nat → Nat → Nat × Nat
  | [], day => (0, day)
  | length :: rest, day =>
    if day < length then
      (0, day)
    else
      ((splitMonths rest (day - length)).1 + 1, (splitMonths rest (day - length)).2)

theorem splitMonths_lt : ∀ (lengths : List Nat) {earlier later : Nat}, earlier < later →
    (splitMonths lengths earlier).1 < (splitMonths lengths later).1 ∨
      ((splitMonths lengths earlier).1 = (splitMonths lengths later).1 ∧
        (splitMonths lengths earlier).2 < (splitMonths lengths later).2)
  | [], earlier, later, ordered => .inr ⟨rfl, ordered⟩
  | length :: rest, earlier, later, ordered => by
    unfold splitMonths
    by_cases early : earlier < length
    · by_cases late : later < length
      · simp [early, late, ordered]
      · simp [early, late]
    · have late : ¬ later < length := by omega
      have shifted : earlier - length < later - length := by omega
      have below := splitMonths_lt rest shifted
      simp only [early, late, if_false]
      omega

/-- Within the year, the month is one of the listed ones and the day is one of
its days. -/
theorem splitMonths_bound (bound : Nat) :
    ∀ {lengths : List Nat} {day : Nat}, (∀ length ∈ lengths, length ≤ bound) → day < lengths.sum →
        (splitMonths lengths day).1 < lengths.length ∧ (splitMonths lengths day).2 < bound
  | [], day, short, inside => by
    simp at inside
  | length :: rest, day, short, inside => by
    unfold splitMonths
    have here : length ≤ bound := short length (.head _)
    by_cases early : day < length
    · simp only [early, if_true, List.length_cons]
      omega
    · have restInside : day - length < rest.sum := by
        simp only [List.sum_cons] at inside
        omega
      have below :=
        splitMonths_bound bound
          (fun other member => short other (List.mem_cons_of_mem length member))
          restInside
      simp only [early, if_false, List.length_cons]
      omega

theorem sum_monthLengths (leap : Bool) : (monthLengths leap).sum = if leap then 366 else 365 := by
  cases leap <;> rfl

theorem monthLengths_le (leap : Bool) : ∀ length ∈ monthLengths leap, length ≤ 31 := by
  cases leap <;> decide

/-! ## Texts of instants -/

def nanosPerSecond : Nat := 1000000000

def secondsPerDay : Nat := 86400

def yearTenThousand : Nat :=
  daysBeforeYear 10000 * secondsPerDay * nanosPerSecond

/-- The last instant the chrono library can express, in the year 262142. -/
def lastInstant : Nat :=
  daysBeforeYear 262143 * secondsPerDay * nanosPerSecond - 1

/-- The shortest exact fraction of 0, 3, 6 or 9 digits, and the offset. -/
def fractionText (nanos : Nat) : List Char :=
  (if nanos = 0 then []
    else if nanos % 1000000 = 0 then '.' :: digits 3 (nanos / 1000000)
    else if nanos % 1000 = 0 then '.' :: digits 6 (nanos / 1000)
    else '.' :: digits 9 nanos) ++ "+00:00".toList

/-- The time of the day, from seconds into the day and nanoseconds. -/
def timeText (second nanos : Nat) : List Char :=
  digits 2 (second / 3600) ++ ':' :: (digits 2 (second / 60 % 60) ++
      ':' :: (digits 2 (second % 60) ++ fractionText nanos))

/-- The year: four digits up to 9999, a sign and all digits beyond. -/
def yearText (year : Nat) : List Char :=
  if year < 10000 then digits 4 year else '+' :: Nat.toDigits 10 year

/-- The date, from the days since the start of the year 0. -/
def dateText (day : Nat) : List Char :=
  let year := yearOf day
  let monthDay := splitMonths (monthLengths (isLeap year)) (day - daysBeforeYear year)
  yearText year ++ '-' :: (digits 2 (monthDay.1 + 1) ++ '-' :: digits 2 (monthDay.2 + 1))

/-- `to_rfc3339` of an instant in UTC. -/
def rfc3339 (instant : Nat) : List Char :=
  let seconds := instant / nanosPerSecond
  dateText (seconds / secondsPerDay) ++
    'T' :: timeText (seconds % secondsPerDay) (instant % nanosPerSecond)

theorem digits_add (width : Nat) : ∀ (more number : Nat),
    digits (width + more) number =
      digits width (number / 10 ^ more) ++ digits more (number % 10 ^ more)
  | 0, number => by
    simp [digits]
  | more + 1, number => by
    have divided : number / 10 ^ (more + 1) = number / 10 / 10 ^ more := by
      rw [Nat.div_div_eq_div_mul, pow_succ, Nat.mul_comm]
    have front : number % 10 ^ (more + 1) / 10 = number / 10 % 10 ^ more := by
      rw [pow_succ, Nat.mul_comm, Nat.mod_mul_right_div_self]
    have last : number % 10 ^ (more + 1) % 10 = number % 10 := by
      rw [Nat.mod_mod_of_dvd]
      exact Dvd.intro_left (10 ^ more) rfl
    rw [← Nat.add_assoc, digits, digits_add width more (number / 10), divided]
    simp only [digits, front, last, List.append_assoc]

def blockText (block : Nat) (next : Nat → List Char) (rest : Nat) : List Char :=
  if rest = 0 then
    "+00:00".toList
  else
    digits 3 (rest / block) ++ next (rest % block)

theorem plus_lt_digits (width number : Nat) (rest later : List Char) :
    '+' :: rest < digits (1 + width) number ++ later := by
  have heads : ∀ digit < 10, '+' < Char.ofNat (48 + digit) := by
    decide
  have first := heads (number / 10 ^ width % 10) (Nat.mod_lt _ (by decide))
  rw [digits_add 1 width]
  simp only [digits, List.nil_append, List.cons_append]
  exact List.cons_lt_cons_iff.mpr (.inl first)

variable {earlier later : Nat}

/-- If what follows a block is ordered, so are the blocks. -/
theorem blockText_lt {block : Nat} {next : Nat → List Char} (positive : 0 < block)
    (ordered : ∀ {earlier later}, earlier < later → later < block → next earlier < next later)
    (before : earlier < later) (small : later < 1000 * block) :
    blockText block next earlier < blockText block next later := by
  have laterPositive : later ≠ 0 := by omega
  unfold blockText
  rw [if_neg laterPositive]
  by_cases zero : earlier = 0
  · rw [if_pos zero]
    exact plus_lt_digits 2 _ _ _
  · rw [if_neg zero]
    have smallBlock : later / block < 10 ^ 3 := Nat.div_lt_of_lt_mul (by omega)
    have divided : earlier / block ≤ later / block := Nat.div_le_div_right (Nat.le_of_lt before)
    rw [field_lt_iff 3 (by omega) smallBlock]
    rcases Nat.lt_or_eq_of_le divided with smaller | same
    · exact .inl smaller
    · refine .inr ⟨same, ordered ?_ (Nat.mod_lt _ positive)⟩
      have first := Nat.div_add_mod earlier block
      have second := Nat.div_add_mod later block
      rw [same] at first
      omega

def lastBlock : Nat → List Char :=
  blockText 1 fun _ => "+00:00".toList

def middleBlock : Nat → List Char :=
  blockText 1000 lastBlock

theorem lastBlock_lt (before : earlier < later) (small : later < 1000) :
    lastBlock earlier < lastBlock later := by
  refine blockText_lt (by decide) (fun smaller inside => ?_) before (by omega)
  omega

theorem middleBlock_lt (before : earlier < later) (small : later < 1000000) :
    middleBlock earlier < middleBlock later :=
  blockText_lt (by decide) lastBlock_lt before (by omega)

theorem fractionText_eq (nanos : Nat) : fractionText nanos =
    if nanos = 0 then
      "+00:00".toList
    else
      '.' :: blockText 1000000 middleBlock nanos := by
  unfold fractionText
  by_cases zero : nanos = 0
  · simp [zero]
  · rw [if_neg zero, if_neg zero]
    unfold blockText middleBlock
    rw [if_neg zero]
    by_cases millis : nanos % 1000000 = 0
    · simp [millis, blockText]
    · rw [if_neg millis]
      have sixDigits : digits 6 (nanos / 1000) =
          digits 3 (nanos / 1000000) ++ digits 3 (nanos % 1000000 / 1000) := by
        have split := digits_add 3 3 (nanos / 1000)
        have front : nanos / 1000 / 10 ^ 3 = nanos / 1000000 := by omega
        have back : nanos / 1000 % 10 ^ 3 = nanos % 1000000 / 1000 := by omega
        rw [front, back] at split
        exact split
      have lastPart : nanos % 1000000 % 1000 = nanos % 1000 := by omega
      by_cases micros : nanos % 1000 = 0
      · rw [if_pos micros, sixDigits]
        simp [blockText, millis, lastBlock, lastPart, micros]
      · have nineDigits :
            digits 9 nanos = digits 6 (nanos / 1000) ++ digits 3 (nanos % 1000) :=
          digits_add 6 3 nanos
        rw [if_neg micros, nineDigits, sixDigits]
        simp [blockText, millis, lastBlock, lastPart, micros]

/-- Fractions are ordered as the nanoseconds are, although they differ in
length: the `+` of the offset sorts before `.` and before every digit. -/
theorem fractionText_lt (before : earlier < later) (small : later < 1000000000) :
    fractionText earlier < fractionText later := by
  have laterPositive : later ≠ 0 := by omega
  rw [fractionText_eq, fractionText_eq, if_neg laterPositive]
  by_cases zero : earlier = 0
  · rw [if_pos zero]
    have marks : '+' < '.' := by decide
    exact List.cons_lt_cons_iff.mpr (.inl marks)
  · rw [if_neg zero, separator_lt_iff]
    exact blockText_lt (by decide) middleBlock_lt before (by omega)

theorem timeText_lt {second laterSecond nanos laterNanos : Nat}
    (inDay : laterSecond < secondsPerDay) (small : laterNanos < nanosPerSecond)
    (before : second < laterSecond ∨ (second = laterSecond ∧ nanos < laterNanos)) :
    timeText second nanos < timeText laterSecond laterNanos := by
  unfold secondsPerDay at inDay
  have hour : laterSecond / 3600 < 10 ^ 2 := by omega
  have earlierHour : second / 3600 < 10 ^ 2 := by omega
  have minute : laterSecond / 60 % 60 < 10 ^ 2 := by omega
  have earlierMinute : second / 60 % 60 < 10 ^ 2 := by omega
  have clock : laterSecond % 60 < 10 ^ 2 := by omega
  have earlierClock : second % 60 < 10 ^ 2 := by omega
  unfold timeText
  rw [field_lt_iff 2 earlierHour hour, separator_lt_iff,
    field_lt_iff 2 earlierMinute minute, separator_lt_iff,
    field_lt_iff 2 earlierClock clock]
  rcases before with smaller | ⟨same, fractions⟩
  · omega
  · subst same
    have ordered := fractionText_lt fractions small
    simp [ordered]

theorem length_dateText {day : Nat} (fourDigits : yearOf day < 10000) :
    (dateText day).length = 10 := by
  simp [dateText, yearText, fourDigits]

theorem dateText_lt (before : earlier < later) (fourDigits : yearOf later < 10000) :
    dateText earlier < dateText later := by
  have years : yearOf earlier ≤ yearOf later := yearOf_mono (Nat.le_of_lt before)
  have bound (day : Nat) : (splitMonths (monthLengths (isLeap (yearOf day)))
      (day - daysBeforeYear (yearOf day))).1 < 12 ∧
        (splitMonths (monthLengths (isLeap (yearOf day)))
          (day - daysBeforeYear (yearOf day))).2 < 31 := by
    refine splitMonths_bound 31 (monthLengths_le _) ?_
    have spec := yearOf_spec day
    rw [daysBeforeYear_succ] at spec
    rw [sum_monthLengths]
    split at spec
    · next leap =>
      simp only [leap, if_true]
      omega
    · next common =>
      simp only [common, Bool.false_eq_true, if_false]
      omega
  obtain ⟨earlierMonth, earlierDay⟩ := bound earlier
  obtain ⟨laterMonth, laterDay⟩ := bound later
  unfold dateText yearText
  dsimp only
  rw [if_pos (by omega), if_pos fourDigits, field_lt_iff 4 (by omega) (by omega)]
  rcases Nat.lt_or_eq_of_le years with smaller | same
  · exact .inl smaller
  · refine .inr ⟨same, ?_⟩
    rw [same] at earlierMonth earlierDay ⊢
    have start := (yearOf_spec earlier).1
    rw [same] at start
    have shifted :
        earlier - daysBeforeYear (yearOf later) < later - daysBeforeYear (yearOf later) := by
      omega
    have inYear := splitMonths_lt (monthLengths (isLeap (yearOf later))) shifted
    rw [separator_lt_iff, field_lt_iff 2 (by omega) (by omega), separator_lt_iff,
      (digits_order 2 (by omega) (by omega)).2]
    omega

theorem yearOf_lt_of_before {instant : Nat} (before : instant < yearTenThousand) :
    yearOf (instant / nanosPerSecond / secondsPerDay) < 10000 := by
  have inside : instant / nanosPerSecond / secondsPerDay < daysBeforeYear 10000 := by
    unfold yearTenThousand at before
    refine Nat.div_lt_of_lt_mul (Nat.div_lt_of_lt_mul ?_)
    calc instant < daysBeforeYear 10000 * secondsPerDay * nanosPerSecond := before
      _ = nanosPerSecond * (secondsPerDay * daysBeforeYear 10000) := by ring
  by_contra late
  have starts := daysBeforeYear_strictMono.monotone (Nat.le_of_not_lt late)
  have spec := (yearOf_spec (instant / nanosPerSecond / secondsPerDay)).1
  omega

theorem rfc3339_lt (before : earlier < later) (inRange : later < yearTenThousand) :
    rfc3339 earlier < rfc3339 later := by
  have laterYear := yearOf_lt_of_before inRange
  have earlierYear := yearOf_lt_of_before (Nat.lt_trans before inRange)
  unfold rfc3339
  dsimp only
  rw [append_lt_append_iff ((length_dateText earlierYear).trans (length_dateText laterYear).symm)]
  have seconds : earlier / nanosPerSecond ≤ later / nanosPerSecond :=
    Nat.div_le_div_right (Nat.le_of_lt before)
  have days : earlier / nanosPerSecond / secondsPerDay ≤ later / nanosPerSecond / secondsPerDay :=
    Nat.div_le_div_right seconds
  rcases Nat.lt_or_eq_of_le days with smaller | sameDay
  · exact .inl (dateText_lt smaller laterYear)
  · refine .inr ⟨by rw [sameDay], ?_⟩
    rw [separator_lt_iff]
    refine timeText_lt (Nat.mod_lt _ (by decide)) (Nat.mod_lt _ (by decide)) ?_
    unfold nanosPerSecond secondsPerDay at *
    omega

theorem rfc3339_lt_iff {first second : Nat} (firstInRange : first < yearTenThousand)
    (secondInRange : second < yearTenThousand) :
    rfc3339 first < rfc3339 second ↔ first < second := by
  constructor
  · intro texts
    by_contra notBefore
    rcases Nat.lt_or_eq_of_le (Nat.le_of_not_lt notBefore) with after | same
    · exact List.lt_asymm texts (rfc3339_lt after firstInRange)
    · rw [same] at texts
      exact List.lt_irrefl _ texts
  · exact fun before => rfc3339_lt before secondInRange

end Foundation
end CanglingBroker
