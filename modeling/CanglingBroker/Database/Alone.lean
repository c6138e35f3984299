import CanglingBroker.Foundation.Alone
import CanglingBroker.Foundation.Grouped
import CanglingBroker.Database.Calls

/-!
# Calls without concurrency

`Answered clock` answers the actions of a call when no statement fails and no other call
is in progress; the clock reads the instants that `clock` admits.  What a statement
leaves open stays open: the rows kept among equals and the order of a listing.
-/

namespace CanglingBroker

open Foundation
open Program (Asks Ran asks_ask asks_bind asks_done asks_exceptBind exists_ran
  ran_ask ran_bind ran_exceptBind)

def Answered (clock : Nat → Prop) (db : Database) (request : Action)
    (answer : Reply request) (after : Database) : Prop :=
  ∃ choice : Choice,
    choice.fails = false ∧ clock choice.clock ∧ perform choice db request = some (answer, after)

/-! ## Every action can be answered -/

theorem exists_picks {candidates : List MessageRow}
    (distinct : (candidates.map fun row => row.id).Nodup) (limit : Nat) :
    ∃ picked, Picks candidates limit picked := by
  let sorted := candidates.insertionSort fun left right => left.createdAt ≤ right.createdAt
  have perm : sorted.Perm candidates := List.perm_insertionSort _ _
  have ordered : sorted.Pairwise fun left right => left.createdAt ≤ right.createdAt :=
    List.pairwise_insertionSort _ _
  have ids : (sorted.map fun row => row.id).Nodup :=
    (perm.map fun row => row.id).nodup_iff.mpr distinct
  refine ⟨(sorted.take limit).map fun row => row.id, ?_, ?_, ?_, ?_⟩
  · exact ids.sublist ((List.take_sublist limit sorted).map _)
  · rw [List.length_map, List.length_take, perm.length_eq]
  · intro id member
    obtain ⟨row, taken, rfl⟩ := List.mem_map.mp member
    exact ⟨row, perm.mem_iff.mp (List.mem_of_mem_take taken), rfl⟩
  · intro kept isKept left isLeft taken notTaken
    obtain ⟨row, rowTaken, same⟩ := List.mem_map.mp taken
    have keptTaken : kept ∈ sorted.take limit := by
      have equal :=
        List.inj_on_of_nodup_map ids (List.mem_of_mem_take rowTaken) (perm.mem_iff.mpr isKept) same
      exact equal ▸ rowTaken
    have leftBehind : left ∈ sorted.drop limit := by
      have listed := perm.mem_iff.mpr isLeft
      rw [← List.take_append_drop limit sorted] at listed
      rcases List.mem_append.mp listed with early | late
      · exact absurd (List.mem_map.mpr ⟨left, early, rfl⟩) notTaken
      · exact late
    rw [← List.take_append_drop limit sorted] at ordered
    exact (List.pairwise_append.mp ordered).2.2 kept keptTaken left leftBehind

theorem exists_uuid (issued : List String) : ∃ uuid, uuid ∉ issued := by
  have injective : Function.Injective fun length => String.ofList (List.replicate length 'a') := by
    intro left right same
    have lengths := congrArg (fun text => text.toList.length) same
    simpa using lengths
  have infinite : Infinite String := Infinite.of_injective _ injective
  obtain ⟨uuid, absent⟩ := infinite.exists_notMem_finset issued.toFinset
  exact ⟨uuid, fun member => absent (List.mem_toFinset.mpr member)⟩

theorem exists_admits (update : Update) (table : MessageTable) :
    ∃ picked, update.Admits table picked := by
  cases update with
  | claimBatch _ _ _ _ limit =>
    exact exists_picks ((table.primaryNodup).sublist (List.filter_sublist.map _)) limit
  | _ => exact ⟨[], trivial⟩

theorem exists_answered (clock : Nat → Prop) (now : Nat) (ticks : clock now) (db : Database)
    (request : Action) : ∃ answer after, Answered clock db request answer after := by
  -- a choice for which the statement is defined
  have enough : ∀ choice : Choice, choice.fails = false → choice.clock = now →
      (perform choice db request).isSome = true →
        ∃ answer after, Answered clock db request answer after := by
    intro choice works reads defined
    obtain ⟨⟨answer, after⟩, performed⟩ := Option.isSome_iff_exists.mp defined
    exact ⟨answer, after, choice, works, reads ▸ ticks, performed⟩
  have statements : ∀ (statement : Sql) (order : List String),
      request = .sql statement → (statement.execute ⟨false, now, "", order⟩ db).isSome = true →
          ∃ answer after, Answered clock db request answer after := by
    rintro statement order rfl defined
    refine enough ⟨false, now, "", order⟩ rfl rfl ?_
    obtain ⟨outcome, executed⟩ := Option.isSome_iff_exists.mp defined
    rw [perform, if_neg Bool.false_ne_true, executed]
    cases outcome with
    | error => rfl
    | ok => rfl
  cases request with
  | sql statement =>
    cases statement with
    | update store statement =>
      obtain ⟨picked, admits⟩ := exists_admits statement (db.messages store)
      refine statements _ picked rfl ?_
      rw [Sql.execute, if_pos admits]
      rfl
    | selectReady store now skip =>
      obtain ⟨picked, picks⟩ :=
        exists_picks
          (((db.messages store).primaryNodup).sublist
            ((List.filter_sublist (p := dispatchable now skip)).map _)) 1
      refine statements _ picked rfl ?_
      rw [Sql.execute, if_pos picks]
      rfl
    | readyTopics store instant =>
      refine statements _
        (((db.messages store).rows.filter (·.ready instant)).map (·.topic)).dedup rfl ?_
      rw [Sql.execute, if_pos (List.Perm.refl _)]
      rfl
    | selectAll store =>
      refine statements _ ((db.messages store).rows.map (·.id)) rfl ?_
      rw [Sql.execute, if_pos (List.Perm.refl _)]
      rfl
    | selectTopics =>
      refine statements _ db.topicStats.keys rfl ?_
      rw [Sql.execute, if_pos (List.Perm.refl _)]
      rfl
    | selectEphemeral =>
      refine statements _ (ephemeralRows db) rfl ?_
      rw [Sql.execute, if_pos (List.Perm.refl _)]
      rfl
    | selectIdle cutoff =>
      refine statements _ (idleTopics db cutoff) rfl ?_
      rw [Sql.execute, if_pos (List.Perm.refl _)]
      rfl
    | _ => exact statements _ [] rfl rfl
  | access access =>
    cases access with
    | newUuid =>
      obtain ⟨uuid, unissued⟩ := exists_uuid db.issued
      refine enough ⟨false, now, uuid, []⟩ rfl rfl ?_
      rw [perform, Access.execute, if_neg unissued]
      rfl
    | _ => exact enough ⟨false, now, "", []⟩ rfl rfl rfl

theorem exists_ran_answered {Result : Type} (clock : Nat → Prop) {now : Nat} (ticks : clock now)
    (program : Program Action Reply Result) (db : Database) :
    ∃ value after, Ran (Answered clock) program db value after := by
  have responds : ∀ state request, True →
      ∃ answer reached, Answered clock state request answer reached ∧ True := by
    intro state request _
    obtain ⟨answer, reached, answered⟩ := exists_answered clock now ticks state request
    exact ⟨answer, reached, answered, trivial⟩
  obtain ⟨value, after, ran, _⟩ := exists_ran responds program db trivial
  exact ⟨value, after, ran⟩

/-! ## What the answers are -/

section Answers

variable {clock : Nat → Prop} {db after : Database}

theorem answered_update {store : Store} {statement : Update}
    {answer : Except DbError (List MessageRow)}
    (answered : Answered clock db (.sql (.update store statement)) answer after) :
    ∃ picked, statement.Admits (db.messages store) picked ∧
        answer = .ok (statement.execute picked (db.messages store)).1 ∧
        after = db.setMessages store (statement.execute picked (db.messages store)).2 := by
  obtain ⟨choice, works, _, performed⟩ := answered
  rw [perform, works, if_neg Bool.false_ne_true, Sql.execute] at performed
  by_cases admits : statement.Admits (db.messages store) choice.order
  · rw [if_pos admits] at performed
    cases performed
    exact ⟨choice.order, admits, rfl, rfl⟩
  · rw [if_neg admits] at performed
    cases performed

theorem performed_readyTopics {choice : Choice} {store : Store} {now : Nat}
    {answer : Except DbError (List String)} (works : choice.fails = false)
    (performed : perform choice db (.sql (.readyTopics store now)) = some (answer, after)) :
    choice.order.Perm (((db.messages store).rows.filter (·.ready now)).map (·.topic)).dedup ∧
      answer = .ok choice.order ∧ after = db := by
  rw [perform, works, if_neg Bool.false_ne_true, Sql.execute] at performed
  by_cases perm :
    choice.order.Perm (((db.messages store).rows.filter (·.ready now)).map (·.topic)).dedup
  · rw [if_pos perm] at performed
    cases performed
    exact ⟨perm, rfl, rfl⟩
  · rw [if_neg perm] at performed
    cases performed

theorem answered_readyTopics {store : Store} {now : Nat} {answer : Except DbError (List String)}
    (answered : Answered clock db (.sql (.readyTopics store now)) answer after) :
    ∃ topics, topics.Perm (((db.messages store).rows.filter (·.ready now)).map (·.topic)).dedup ∧
        answer = .ok topics ∧ after = db := by
  obtain ⟨choice, works, _, performed⟩ := answered
  exact ⟨choice.order, performed_readyTopics works performed⟩

theorem answered_now {now : Nat} (answered : Answered clock db (.access .now) now after) :
    clock now ∧ after = db := by
  obtain ⟨choice, _, ticks, performed⟩ := answered
  cases performed
  exact ⟨ticks, rfl⟩

theorem answered_newUuid {uuid : String}
    (answered : Answered clock db (.access .newUuid) uuid after) :
    uuid ∉ db.issued ∧ after = { db with issued := uuid :: db.issued } := by
  obtain ⟨choice, _, _, performed⟩ := answered
  rw [perform, Access.execute] at performed
  split at performed
  · cases performed
  · next unissued =>
    cases performed
    exact ⟨unissued, rfl⟩

theorem answered_nextTurn {turn : Nat}
    (answered : Answered clock db (.access .nextTurn) turn after) :
    turn = db.turn ∧ after = { db with turn := (db.turn + 1) % 2 ^ 64 } := by
  obtain ⟨choice, _, _, performed⟩ := answered
  cases performed
  exact ⟨rfl, rfl⟩

end Answers

/-! ## Runs of calls -/

namespace Db

variable {State : Type} {respond : State → (request : Action) → Reply request → State → Prop}
  {db final : State} {Item Result : Type}

theorem ran_sql {statement : Sql} {outcome : Except DbError statement.Answer} :
    Ran respond (sql statement).run db outcome final ↔ respond db (.sql statement) outcome final :=
  ran_ask

variable {access : Access}

theorem ran_access {outcome : Except DbError access.Answer} :
    Ran respond (Db.access access).run db outcome final ↔
      ∃ answer, respond db (.access access) answer final ∧ outcome = .ok answer := by
  constructor
  · intro ran
    obtain ⟨answer, middle, asked, rfl, rfl⟩ := ran_bind.mp ran
    exact ⟨answer, ran_ask.mp asked, rfl⟩
  · rintro ⟨answer, responded, rfl⟩
    exact ran_bind.mpr ⟨answer, final, ran_ask.mpr responded, rfl, rfl⟩

theorem ran_access_bind {continuation : access.Answer → Db Result}
    {outcome : Except DbError Result} :
    Ran respond (Db.access access >>= continuation).run db outcome final ↔ ∃ answer middle,
        respond db (.access access) answer middle ∧
          Ran respond (continuation answer).run middle outcome final := by
  rw [ran_exceptBind]
  constructor
  · rintro (⟨answer, middle, ran, later⟩ | ⟨problem, ran, _⟩)
    · obtain ⟨given, responded, same⟩ := ran_access.mp ran
      cases same
      exact ⟨answer, middle, responded, later⟩
    · obtain ⟨given, responded, same⟩ := ran_access.mp ran
      cases same
  · rintro ⟨answer, middle, responded, later⟩
    exact .inl ⟨answer, middle, ran_access.mpr ⟨answer, responded, rfl⟩, later⟩

variable {body : Item → Db Result} {outcome : Except DbError (List Result)} {rest : List Item}
  {item : Item}

theorem ran_forEach_cons :
    Ran respond (forEach body (item :: rest)).run db outcome final ↔
      (∃ first middle, Ran respond (body item).run db (.ok first) middle ∧
          ((∃ later, Ran respond (forEach body rest).run middle (.ok later) final ∧
              outcome = .ok (first :: later)) ∨
            ∃ problem, Ran respond (forEach body rest).run middle (.error problem) final ∧
              outcome = .error problem)) ∨
        ∃ problem, Ran respond (body item).run db (.error problem) final ∧
          outcome = .error problem := by
  rw [forEach, ran_exceptBind]
  refine or_congr ?_ Iff.rfl
  refine exists_congr fun first => exists_congr fun middle => and_congr_right fun _ => ?_
  rw [ran_exceptBind]
  refine or_congr ?_ Iff.rfl
  constructor
  · rintro ⟨later, reached, ran, rfl, rfl⟩
    exact ⟨later, ran, rfl⟩
  · rintro ⟨later, ran, rfl⟩
    exact ⟨later, final, ran, rfl, rfl⟩

/-- A loop whose body always succeeds, and does to what is seen of the state what `handle`
says, does to it what handling the items in order does.  `ready` is what the body needs of
the view, given the items that are still to come, and `kept` what it leaves alone. -/
theorem ran_forEach_handleAll {View : Type} (view : State → View)
    (handle : Item → View → Result × View) (ready : List Item → View → Prop) (kept : State → Prop)
    (simulates :
      ∀ {item rest db outcome after}, ready (item :: rest) (view db) → kept db →
        Ran respond (body item).run db outcome after →
          outcome = .ok (handle item (view db)).1 ∧ view after = (handle item (view db)).2 ∧
            ready rest (handle item (view db)).2 ∧ kept after) :
    ∀ {items : List Item} {db : State} {outcome : Except DbError (List Result)},
      ready items (view db) → kept db → Ran respond (forEach body items).run db outcome final →
        outcome = .ok (Grouped.handleAll handle items (view db)).1 ∧
          view final = (Grouped.handleAll handle items (view db)).2 ∧ kept final
  | [], _, _, _, keeps, ⟨rfl, rfl⟩ => ⟨rfl, rfl, keeps⟩
  | item :: rest, db, outcome, set, keeps, ran => by
    rcases ran_forEach_cons.mp ran with ⟨first, middle, one, others⟩ | ⟨problem, one, _⟩
    · obtain ⟨same, seen, still, keeps⟩ := simulates set keeps one
      cases same
      rw [← seen] at still
      rcases others with ⟨results, tail, rfl⟩ | ⟨problem, tail, _⟩
      · obtain ⟨same, reached, keeps⟩ :=
          ran_forEach_handleAll view handle ready kept simulates still keeps tail
        cases same
        rw [Grouped.handleAll, ← seen]
        exact ⟨rfl, reached, keeps⟩
      · cases (ran_forEach_handleAll view handle ready kept simulates still keeps tail).1
    · cases (simulates set keeps one).1

/-- A loop over the shards whose body changes what is seen of its shard only. -/
theorem ran_forEach_shards {Slot : Type} (slots : State → ShardIndex → Slot)
    (visit : ShardIndex → Slot → Result × Slot) (ready : ShardIndex → Slot → Prop)
    (kept : State → Prop) {body : ShardIndex → Db Result}
    (simulates :
      ∀ {shard db outcome after}, ready shard (slots db shard) → kept db →
        Ran respond (body shard).run db outcome after →
          outcome = .ok (visit shard (slots db shard)).1 ∧
            slots after = Function.update (slots db) shard (visit shard (slots db shard)).2 ∧
            kept after)
    (set : ∀ shard, ready shard (slots db shard)) (keeps : kept db)
    (ran : Ran respond (forEach body allShards).run db outcome final) :
    outcome = .ok (allShards.map fun shard => (visit shard (slots db shard)).1) ∧
      (∀ shard, slots final shard = (visit shard (slots db shard)).2) ∧ kept final := by
  have distinct : allShards.Nodup := List.nodup_finRange _
  have spec :=
    ran_forEach_handleAll slots (Grouped.atPlace visit id)
      (fun shards slots => shards.Nodup ∧ ∀ shard ∈ shards, ready shard (slots shard))
      kept ?_ ⟨distinct, fun shard _ => set shard⟩ keeps ran
  · rw [Grouped.handleAll_places distinct] at spec
    obtain ⟨same, reached, keeps⟩ := spec
    refine ⟨same, fun shard => ?_, keeps⟩
    rw [reached]
    exact if_pos (List.mem_finRange shard)
  · rintro shard rest db outcome after ⟨unvisited, set⟩ keeps ran
    obtain ⟨same, reached, keeps⟩ := simulates (set shard (.head _)) keeps ran
    refine ⟨same, reached, ⟨(List.nodup_cons.mp unvisited).2, ?_⟩, keeps⟩
    intro other member
    have apart : other ≠ shard := fun same => (List.nodup_cons.mp unvisited).1 (same ▸ member)
    simp only [Grouped.atPlace, id, Function.update_of_ne apart]
    exact set other (.tail _ member)

theorem ran_forEach_reads {value : Item → Result} {items : List Item}
    {outcome : Except DbError (List Result)}
    (reads :
      ∀ {item outcome after}, Ran respond (body item).run db outcome after →
        outcome = .ok (value item) ∧ after = db)
    (ran : Ran respond (forEach body items).run db outcome final) :
    outcome = .ok (items.map value) ∧ final = db := by
  have spec :=
    ran_forEach_handleAll (fun _ => ()) (fun item seen => (value item, seen)) (fun _ _ => True)
      (· = db) ?_ trivial rfl ran
  · rw [Grouped.handleAll_pure] at spec
    exact ⟨spec.1, spec.2.2⟩
  · rintro item rest db outcome after _ rfl ran
    exact ⟨(reads ran).1, rfl, trivial, (reads ran).2⟩

variable {body : Item → Db (Option Result)} {outcome : Except DbError (Option Result)}

/-- A search over a list goes on until a body finds something. -/
theorem ran_firstSome_cons :
    Ran respond (firstSome body (item :: rest)).run db outcome final ↔
      (∃ found, Ran respond (body item).run db (.ok (some found)) final ∧
          outcome = .ok (some found)) ∨
        (∃ middle, Ran respond (body item).run db (.ok none) middle ∧
          Ran respond (firstSome body rest).run middle outcome final) ∨
        ∃ problem, Ran respond (body item).run db (.error problem) final ∧
          outcome = .error problem := by
  rw [firstSome, ran_exceptBind]
  constructor
  · rintro (⟨answer, middle, ran, later⟩ | failed)
    · cases answer with
      | none => exact .inr (.inl ⟨middle, ran, later⟩)
      | some found =>
        obtain ⟨rfl, rfl⟩ := later
        exact .inl ⟨found, ran, rfl⟩
    · exact .inr (.inr failed)
  · rintro (⟨found, ran, rfl⟩ | ⟨middle, ran, later⟩ | failed)
    · exact .inl ⟨some found, final, ran, rfl, rfl⟩
    · exact .inl ⟨none, middle, ran, later⟩
    · exact .inr failed

theorem ran_firstSome_reads {value : Item → Option Result}
    (reads :
      ∀ {item outcome after}, Ran respond (body item).run db outcome after →
        outcome = .ok (value item) ∧ after = db) :
    ∀ {items : List Item} {outcome : Except DbError (Option Result)},
      Ran respond (firstSome body items).run db outcome final →
        outcome = .ok (items.findSome? value) ∧ final = db
  | [], _, ran => by
    obtain ⟨rfl, rfl⟩ := ran
    exact ⟨rfl, rfl⟩
  | item :: rest, outcome, ran => by
    rw [List.findSome?_cons]
    rcases ran_firstSome_cons.mp ran with
      ⟨found, first, rfl⟩ | ⟨middle, first, later⟩ | ⟨problem, first, rfl⟩
    · obtain ⟨same, rfl⟩ := reads first
      rw [← Except.ok.inj same]
      exact ⟨rfl, rfl⟩
    · obtain ⟨same, unchanged⟩ := reads first
      rw [unchanged] at later
      rw [← Except.ok.inj same]
      exact ran_firstSome_reads reads later
    · cases (reads first).1

theorem ran_firstSome_head {good : Result → Prop}
    (ran : Ran respond (firstSome body (item :: rest)).run db outcome final) (finds :
      ∀ {answer reached}, Ran respond (body item).run db answer reached →
        ∃ found, answer = .ok (some found) ∧ good found) :
    ∃ found, outcome = .ok (some found) ∧ good found := by
  rcases ran_firstSome_cons.mp ran with ⟨found, first, rfl⟩ | ⟨_, first, _⟩ | ⟨_, first, rfl⟩
  · exact finds first
  · obtain ⟨_, same, _⟩ := finds first
    cases same
  · exact finds first

/-! ## The requests of a call -/

variable {allowed : Action → Prop}

theorem asks_sql {statement : Sql} (asked : allowed (.sql statement)) :
    Asks allowed (sql statement).run :=
  asks_ask asked

theorem asks_access (asked : allowed (.access access)) :
    Asks allowed (Db.access access).run :=
  asks_bind (asks_ask asked) fun _ => asks_done _

theorem asks_firstSome
    (each : ∀ item, Asks allowed (body item).run) :
    ∀ items : List Item, Asks allowed (firstSome body items).run
  | [] => asks_done _
  | item :: rest => by
    refine asks_exceptBind (each item) fun found => ?_
    cases found with
    | none => exact asks_firstSome each rest
    | some => exact asks_done _

end Db

end CanglingBroker
