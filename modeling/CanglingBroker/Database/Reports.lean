import CanglingBroker.Database.Requests

/-!
# What a call reports about a claim

`endings` are the claims a statement ended, read off its answer, and `accepted`
the claims a returned call says it ended.  `Call.Reports` ties the two: a call
reports no more endings than the statements on its path had.
-/

namespace CanglingBroker

open Foundation
open Program (Ensures ensures_of_extends ensures_map ensures_exceptBind)

def hit (rows : List MessageRow) (id lease : String) : List (String × String) :=
  if rows.isEmpty then [] else [(id, lease)]

/-- The pairs of a group that ended a row, given the topics it answered. -/
def deliveredPairs (group : List (String × String))
    (topics : List (Option String)) : List (String × String) :=
  (group.zip topics).filterMap fun entry => entry.2.map fun _ => entry.1

@[simp]
theorem deliveredPairs_cons_none (pair : String × String) (group : List (String × String))
    (topics : List (Option String)) :
    deliveredPairs (pair :: group) (none :: topics) = deliveredPairs group topics :=
  rfl

@[simp]
theorem deliveredPairs_cons_some (pair : String × String) (group : List (String × String))
    (topic : String) (topics : List (Option String)) :
    deliveredPairs (pair :: group) (some topic :: topics) = pair :: deliveredPairs group topics :=
  rfl

/-- The claims a statement ended, as pairs of message and lease. -/
def endingsOf : (request : Action) → Reply request → List (String × String)
  | .sql (.update _ (.release _ id lease)), .ok rows => hit rows id lease
  | .sql (.update _ (.fail _ _ _ id lease)), .ok rows => hit rows id lease
  | .sql (.update _ (.dropClaimed _ id lease)), .ok rows => hit rows id lease
  | .sql (.deliver _ _ group), .ok topics => deliveredPairs group topics
  | _, _ => []

def renewalsOf : (request : Action) → Reply request → List (String × String)
  | .sql (.update _ (.renew _ id lease _)), .ok rows => hit rows id lease
  | _, _ => []

def endings (path : Path) : List (String × String) :=
  path.flatMap fun exchange => endingsOf exchange.request exchange.answer

def renewals (path : Path) : List (String × String) :=
  path.flatMap fun exchange => renewalsOf exchange.request exchange.answer

/-- The claims a returned call says it ended. -/
def accepted : Call → Outcome → List (String × String)
  | .release id lease, .ok (.flag true) => [(id, lease)]
  | .failed id lease _ _, .ok (.flag true) => [(id, lease)]
  | .dropClaimed id lease _, .ok (.flag true) => [(id, lease)]
  | .delivered id lease, .ok (.flag true) => [(id, lease)]
  | .deliveredBatch messages, .ok (.flags results) =>
    (messages.zip results).filterMap fun entry =>
      if entry.2 then some entry.1 else none
  | _, _ => []

def renewed : Call → Outcome → List (String × String)
  | .renewClaim id lease _, .ok (.flag true) => [(id, lease)]
  | _, _ => []

def Call.Reports (call : Call) (path : Path) (outcome : Outcome) : Prop :=
  (∀ pair, (accepted call outcome).count pair ≤ (endings path).count pair) ∧
    ∀ pair ∈ renewed call outcome, pair ∈ renewals path

theorem endings_cons (exchange : Exchange Action Reply) (path : Path) :
    endings (exchange :: path) = endingsOf exchange.request exchange.answer ++ endings path :=
  List.flatMap_cons

variable {path : Path}

theorem count_endings_le_of_suffix {reached : Path} (longer : path <:+ reached)
    (pair : String × String) :
    (endings path).count pair ≤ (endings reached).count pair := by
  obtain ⟨newer, rfl⟩ := longer
  rw [endings, endings, List.flatMap_append, List.count_append]
  exact Nat.le_add_left _ _

/-! ## Calls on one claim -/

theorem Call.reports_nothing {call : Call} {outcome : Outcome}
    (unaccepted : accepted call outcome = []) (unrenewed : renewed call outcome = []) :
    call.Reports path outcome := by
  simp [Call.Reports, unaccepted, unrenewed]

theorem Call.reports_one {call : Call} {outcome : Outcome} {pair : String × String}
    (reported : accepted call outcome = [pair]) (unrenewed : renewed call outcome = [])
    (ended : pair ∈ endings path) : call.Reports path outcome := by
  refine ⟨fun other => ?_, by simp [unrenewed]⟩
  rw [reported]
  by_cases same : other = pair
  · subst same
    rw [List.count_singleton_self]
    exact List.one_le_count_iff.mpr ended
  · rw [List.count_eq_zero.mpr (by simpa using same)]
    exact Nat.zero_le _

theorem mem_hit {rows : List MessageRow} {id lease : String} (found : rows ≠ []) :
    (id, lease) ∈ hit rows id lease := by
  simp [hit, found]

namespace Db

variable {Result : Type} (messages : List (String × String))

private theorem ensures_shard {id : String} {after : Path → Except DbError Result → Prop}
    {continuation : Option ShardIndex → Db Result}
    (failing : ∀ reached problem, after reached (.error problem))
    (missing : ∀ reached, Ensures (fun _ _ => True) after reached (continuation none).run)
    (onward :
      ∀ shard reached, Ensures (fun _ _ => True) after reached (continuation (some shard)).run) :
    Ensures (fun _ _ => True) after [] (shardIndexForId id >>= continuation).run := by
  rw [ensures_exceptBind]
  refine ensures_of_extends fun reached outcome _ => ?_
  cases outcome with
  | ok found =>
    cases found with
    | none => exact missing reached
    | some shard => exact onward shard reached
  | error problem => exact failing reached problem

/-- A statement that ends a claim, in a call that answers false when it found no
row. -/
private theorem reports_update {call : Call} {store : Store} {statement : Update}
    {id lease : String} {path : Path} {continuation : List MessageRow → Db Bool}
    (ends : ∀ rows, endingsOf (.sql (.update store statement)) (.ok rows) = hit rows id lease)
    (missed : continuation [] = pure false)
    (onTrue : accepted call (.ok (.flag true)) = [(id, lease)])
    (onFalse : accepted call (.ok (.flag false)) = [])
    (onError : ∀ problem, accepted call (.error problem) = [])
    (unrenewed : ∀ outcome, renewed call outcome = []) :
    Ensures (fun _ _ => True)
      (fun path outcome => call.Reports path (outcome.map Value.flag))
      path (sql (.update store statement) >>= continuation).run := by
  rw [ensures_sql]
  refine ⟨trivial, fun rows => ?_, fun _ => Call.reports_nothing (onError _) (unrenewed _)⟩
  cases rows with
  | nil =>
    rw [missed]
    exact Call.reports_nothing onFalse (unrenewed _)
  | cons row rest =>
    refine ensures_of_extends fun reached outcome longer => ?_
    cases outcome with
    | error problem => exact Call.reports_nothing (onError problem) (unrenewed _)
    | ok flag =>
      cases flag with
      | false => exact Call.reports_nothing onFalse (unrenewed _)
      | true =>
        refine Call.reports_one onTrue (unrenewed _) (List.one_le_count_iff.mp ?_)
        refine le_trans (List.one_le_count_iff.mpr ?_)
          (count_endings_le_of_suffix longer (id, lease))
        rw [endings_cons, ends]
        exact List.mem_append_left _ (mem_hit (List.cons_ne_nil row rest))

theorem reports_release (id lease : String) : Ensures (fun _ _ => True)
    (fun path outcome => (Call.release id lease).Reports path (outcome.map Value.flag))
    [] (release id lease).run := by
  refine ensures_shard (fun _ _ => Call.reports_nothing rfl rfl)
    (fun _ => Call.reports_nothing rfl rfl) fun _ reached => ?_
  rw [ensures_access]
  refine ⟨trivial, fun now => ?_⟩
  exact reports_update (fun _ => rfl) rfl rfl rfl (fun _ => rfl) fun _ => rfl

theorem reports_renewClaim (id lease : String) (visibility : Nat) : Ensures (fun _ _ => True)
    (fun path outcome =>
      (Call.renewClaim id lease visibility).Reports path (outcome.map Value.flag))
    [] (renewClaim id lease visibility).run := by
  refine ensures_shard (fun _ _ => Call.reports_nothing rfl rfl)
    (fun _ => Call.reports_nothing rfl rfl) fun _ reached => ?_
  rw [ensures_access]
  refine ⟨trivial, fun now => ?_⟩
  split
  · exact Call.reports_nothing rfl rfl
  · rw [ensures_sql]
    refine ⟨trivial, fun rows => ?_, fun _ => Call.reports_nothing rfl rfl⟩
    by_cases one : List.length rows = 1
    · refine ⟨by simp [accepted], fun pair member => ?_⟩
      obtain rfl : pair = (id, lease) := by
        simpa [one, renewed, Except.map] using member
      rw [renewals, List.flatMap_cons]
      refine List.mem_append_left _ (mem_hit ?_)
      rintro rfl
      simp at one
    · refine Call.reports_nothing ?_ ?_
      · simp [accepted]
      · simp [one, renewed, Except.map]

theorem reports_dropClaimed (id lease error : String) : Ensures (fun _ _ => True)
    (fun path outcome => (Call.dropClaimed id lease error).Reports path (outcome.map Value.flag))
    [] (dropClaimed id lease error).run := by
  refine ensures_shard (fun _ _ => Call.reports_nothing rfl rfl)
    (fun _ => Call.reports_nothing rfl rfl) fun _ reached => ?_
  rw [ensures_sql]
  refine ⟨trivial, fun held => ?_, fun _ => Call.reports_nothing rfl rfl⟩
  cases held with
  | none => exact Call.reports_nothing rfl rfl
  | some =>
    exact reports_update (fun _ => rfl) rfl rfl rfl (fun _ => rfl) fun _ => rfl

theorem reports_failed (id lease error : String) (maxAttempts : Int) : Ensures (fun _ _ => True)
    (fun path outcome =>
      (Call.failed id lease error maxAttempts).Reports path (outcome.map Value.flag))
    [] (failed id lease error maxAttempts).run := by
  refine ensures_shard (fun _ _ => Call.reports_nothing rfl rfl)
    (fun _ => Call.reports_nothing rfl rfl) fun _ reached => ?_
  rw [ensures_sql]
  refine ⟨trivial, fun held => ?_, fun _ => Call.reports_nothing rfl rfl⟩
  cases held with
  | none => exact Call.reports_nothing rfl rfl
  | some =>
    rw [ensures_access]
    refine ⟨trivial, fun now => ?_⟩
    exact reports_update (fun _ => rfl) rfl rfl rfl (fun _ => rfl) fun _ => rfl

/-! ## Acknowledging a batch -/

def Ack.pair (ack : Ack) : String × String := (ack.id, ack.lease)

theorem nodup_acksOf :
    ((acksOf messages).map Ack.index).Nodup := by
  have positions : (acksOf messages).map Ack.index = List.range' 0 messages.length := by
    rw [acksOf, List.map_map, ← List.zipIdx_map_snd 0 messages]
    rfl
  rw [positions]
  exact List.nodup_range'

theorem acksOf_map_pair :
    (acksOf messages).map Ack.pair = messages := by
  rw [acksOf, List.map_map]
  exact List.zipIdx_map_fst 0 messages

private theorem filterMap_zip_flags {Item Label : Type} (label : Item → Label)
    (flag : Item → Bool) :
    ∀ items : List Item, ((items.map label).zip (items.map flag)).filterMap
        (fun entry => if entry.2 then some entry.1 else none) =
        (items.filter flag).map label
  | [] => rfl
  | item :: rest => by
    have later := filterMap_zip_flags label flag rest
    cases marked : flag item with
    | true => simp [marked, later]
    | false => simp [marked, later]

/-- The positions reported as ended are no more than the claims that ended. -/
theorem count_accepted_le {messages : List (String × String)} {ended : List (Ack × String)}
    (own : ∀ entry ∈ ended, entry.1 ∈ acksOf messages) (pair : String × String) :
    (accepted (.deliveredBatch messages)
        (.ok (.flags ((acksOf messages).map fun ack =>
          ended.any fun entry => entry.1.index = ack.index)))).count pair ≤
      (ended.map fun entry => entry.1.pair).count pair := by
  have listed :=
    filterMap_zip_flags Ack.pair
      (fun ack => ended.any fun entry => entry.1.index = ack.index)
      (acksOf messages)
  rw [acksOf_map_pair] at listed
  have positions := nodup_acksOf messages
  -- a reported position is the position of an ended acknowledgement
  have reported : List.Subperm
      ((acksOf messages).filter fun ack => ended.any fun entry => entry.1.index = ack.index)
      (ended.map (·.1)) := by
    refine List.subperm_of_subset ?_ fun ack member => ?_
    · exact (List.Nodup.of_map _ positions).filter _
    · obtain ⟨inBatch, marked⟩ := List.mem_filter.mp member
      obtain ⟨entry, found, same⟩ := List.any_eq_true.mp marked
      have sameAck : entry.1 = ack :=
        List.inj_on_of_nodup_map positions (own entry found) inBatch (of_decide_eq_true same)
      exact List.mem_map.mpr ⟨entry, found, sameAck⟩
  calc
    _ = (((acksOf messages).filter fun ack =>
        ended.any fun entry => entry.1.index = ack.index).map Ack.pair).count
        pair := by rw [← listed]; rfl
    _ ≤ ((ended.map (·.1)).map Ack.pair).count pair := by
      rw [List.count_eq_countP, List.count_eq_countP, List.countP_map, List.countP_map]
      exact reported.countP_le _
    _ = (ended.map fun entry => entry.1.pair).count pair := by
      rw [List.map_map]
      rfl

/-- A result of a program that succeeds only with values related to its path. -/
private abbrev Yields {Result : Type} (path : Path)
    (relates : Path → Result → Prop) (program : Db Result) : Prop :=
  Ensures (fun _ _ => True)
    (fun reached outcome => ∀ value, outcome = .ok value → relates reached value)
    path program.run

/-- Ended acknowledgements are of the batch, and their claims ended on the
path walked since. -/
private def Ended (acks : List Ack) (path reached : Path) (ended : List (Ack × String)) : Prop :=
  (∀ entry ∈ ended, entry.1 ∈ acks) ∧ ∀ pair,
      (ended.map fun entry => entry.1.pair).count pair + (endings path).count pair ≤
        (endings reached).count pair

private theorem filterMap_zip_topics : ∀ (group : List Ack) (topics : List (Option String)),
    ((group.zip topics).filterMap fun entry => entry.2.map fun topic => (entry.1, topic)).map
        (fun entry => entry.1.pair) =
      deliveredPairs (group.map Ack.pair) topics
  | [], topics => rfl
  | ack :: group, [] => rfl
  | ack :: group, topic :: topics => by
    have later := filterMap_zip_topics group topics
    cases topic with
    | none => simpa using later
    | some => simpa using later

private theorem ended_deliverShard (now : Nat) (shard : ShardIndex) (group : List Ack)
    (path : Path) :
    Yields path (Ended group path) (deliverShard now shard group) := by
  unfold deliverShard
  split
  · rintro ended ⟨⟩
    exact ⟨by simp, by simp⟩
  · refine ensures_sql.mpr ⟨trivial, fun topics => ?_, fun problem => ?_⟩
    · rintro ended ⟨⟩
      refine ⟨fun entry member => ?_, fun pair => ?_⟩
      · obtain ⟨zipped, listed, made⟩ := List.mem_filterMap.mp member
        obtain ⟨topic, _, rfl⟩ := Option.map_eq_some_iff.mp made
        exact (List.of_mem_zip listed).1
      · rw [endings_cons, List.count_append]
        refine Nat.add_le_add_right (le_of_eq ?_) _
        rw [filterMap_zip_topics]
        rfl
    · rintro ended ⟨⟩

private theorem ended_forEach (now : Nat) (placed : List (Ack × Option ShardIndex))
    {acks : List Ack} (ofBatch : ∀ entry ∈ placed, entry.1 ∈ acks) :
    ∀ (shards : List ShardIndex) (path : Path),
      Yields path (fun reached ended => Ended acks path reached ended.flatten)
        (forEach (fun shard => deliverShard now shard (groupOf placed shard)) shards)
  | [], path => by
    rintro ended ⟨⟩
    exact ⟨by simp, by simp⟩
  | shard :: rest, path => by
    refine ensures_exceptBind.mpr ?_
    refine (ended_deliverShard now shard _ path).weaken ?_
    intro middle first firstEnded
    cases first with
    | error => rintro ended ⟨⟩
    | ok first =>
      obtain ⟨firstOwn, firstCount⟩ := firstEnded first rfl
      refine ensures_exceptBind.mpr ?_
      refine (ended_forEach now placed ofBatch rest middle).weaken ?_
      intro reached later laterEnded
      cases later with
      | error => rintro ended ⟨⟩
      | ok later =>
        obtain ⟨laterOwn, laterCount⟩ := laterEnded later rfl
        rintro ended ⟨⟩
        refine ⟨fun entry member => ?_, fun pair => ?_⟩
        · rw [List.flatten_cons] at member
          rcases List.mem_append.mp member with inFirst | inLater
          · exact ofBatch _ (mem_groupOf.mp (firstOwn entry inFirst))
          · exact laterOwn entry inLater
        · have firstBound := firstCount pair
          have laterBound := laterCount pair
          rw [List.flatten_cons, List.map_append, List.count_append]
          omega

theorem reports_deliveredBatch : Ensures (fun _ _ => True)
    (fun path outcome =>
      (Call.deliveredBatch messages).Reports path (outcome.map Value.flags) ∧
        ∀ results, outcome = .ok results → results.length = messages.length)
    [] (deliveredBatch messages).run := by
  unfold deliveredBatch
  refine ensures_exceptBind.mpr (ensures_of_extends fun placing shards _ => ?_)
  cases shards with
  | error => exact ⟨Call.reports_nothing rfl rfl, by simp⟩
  | ok =>
    refine ensures_access.mpr ⟨trivial, fun now => ?_⟩
    refine ensures_exceptBind.mpr ?_
    refine
      (ended_forEach now _ (fun entry member => (List.of_mem_zip member).1) allShards _).weaken ?_
    intro delivering ended wasEnded
    cases ended with
    | error => exact ⟨Call.reports_nothing rfl rfl, by simp⟩
    | ok ended =>
      obtain ⟨own, counted⟩ := wasEnded ended rfl
      refine ensures_exceptBind.mpr (ensures_of_extends fun reached tallied longer => ?_)
      cases tallied with
      | error => exact ⟨Call.reports_nothing rfl rfl, by simp⟩
      | ok =>
        refine ⟨⟨fun pair => ?_, by simp [renewed]⟩, ?_⟩
        swap
        · rintro results ⟨⟩
          simp [acksOf]
        calc
          _ ≤ (ended.flatten.map fun entry => entry.1.pair).count pair := count_accepted_le own pair
          _ ≤ (endings delivering).count pair := le_trans (Nat.le_add_right _ _) (counted pair)
          _ ≤ (endings reached).count pair := count_endings_le_of_suffix longer pair

theorem reports_delivered (id lease : String) : Ensures (fun _ _ => True)
    (fun path outcome => (Call.delivered id lease).Reports path (outcome.map Value.flag))
    [] (delivered id lease).run := by
  refine ensures_exceptBind.mpr ?_
  refine (reports_deliveredBatch [(id, lease)]).weaken ?_
  rintro path outcome ⟨reported, complete⟩
  cases outcome with
  | error => exact Call.reports_nothing rfl rfl
  | ok results =>
    obtain ⟨flag, rfl⟩ := List.length_eq_one_iff.mp (complete results rfl)
    cases flag with
    | false => exact Call.reports_nothing rfl rfl
    | true => exact ⟨fun pair => reported.1 pair, by simp [renewed]⟩

end Db

theorem Call.reports_body (validJson : String → Bool) (call : Call) :
    Ensures (fun _ _ => True) call.Reports [] (call.body validJson).run := by
  cases call with
  | release id lease => exact ensures_map (Db.reports_release id lease)
  | renewClaim id lease visibility => exact ensures_map (Db.reports_renewClaim id lease visibility)
  | failed id lease error maxAttempts =>
    exact ensures_map (Db.reports_failed id lease error maxAttempts)
  | dropClaimed id lease error => exact ensures_map (Db.reports_dropClaimed id lease error)
  | delivered id lease => exact ensures_map (Db.reports_delivered id lease)
  | deliveredBatch messages =>
    exact ensures_map ((Db.reports_deliveredBatch messages).weaken fun _ _ reported => reported.1)
  | _ =>
    exact ensures_of_extends fun _ _ _ =>
      Call.reports_nothing (by simp [accepted]) (by simp [renewed])

end CanglingBroker
