import CanglingBroker.Database.Effects

/-!
# Runs of the database as traces

A schedule of calls, seen from the shared state, is a `Trace`: actions whose effect is
known and which their call's path allows, with restarts in between.  Every later invariant
is an induction over traces.
-/

namespace CanglingBroker

open Foundation

abbrev Entry : Type := Performed Call Action Reply Database

abbrev Broker : Type := Pool Call Action Reply Database Outcome

/-- What the scheduler can do with the calls of the database. -/
abbrev BrokerEvent : Type := PoolEvent Call Choice

def schedule (validJson : String → Bool) (initial : Database)
    (events : List BrokerEvent) : Option Broker :=
  Pool.replay (databaseComponent validJson) initial events

/-- The actions of a run, newest first, and the state they lead to. -/
inductive Trace (initial : Database) : List Entry → Database → Prop
  | start : Trace initial [] initial
  | restart {history : List Entry} {db : Database}
      (earlier : Trace initial history db) : Trace initial history db.restart
  | act {history : List Entry} (entry : Entry)
      (earlier : Trace initial history entry.before)
      (effect : Effect entry.before entry.request entry.answer entry.after)
      (may : entry.call.May (ownPath entry.thread history) entry.request) :
      Trace initial (entry :: history) entry.after

/-- One more action after a trace. -/
structure Trace.Act (initial : Database) (history : List Entry) (entry : Entry) : Prop where
  earlier : Trace initial history entry.before
  effect : Effect entry.before entry.request entry.answer entry.after
  may : entry.call.May (ownPath entry.thread history) entry.request

theorem trace_of_schedule {validJson : String → Bool} {initial : Database}
    {events : List BrokerEvent} {pool : Broker}
    (scheduled : schedule validJson initial events = some pool) :
    Trace initial pool.history pool.shared := by
  have programs : ∀ call,
      Program.Ensures (Call.May call) (fun _ _ => True) []
        ((databaseComponent validJson).program call) :=
    fun call => call.behaves_body validJson [] trivial
  refine Pool.history_induction programs
    (fun current history => Trace initial history current)
    ?_ ?_ .start scheduled
  · intro entry history choice earlier performed may
    exact .act entry earlier (perform_effect performed) may
  · intro current history earlier
    exact .restart earlier

namespace Trace

variable {initial db : Database} {history : List Entry}

theorem effect_of_mem (trace : Trace initial history db) {entry : Entry}
    (member : entry ∈ history) :
    Effect entry.before entry.request entry.answer entry.after := by
  induction trace with
  | start => cases member
  | restart _ ih => exact ih member
  | act _ _ effect _ ih =>
    rcases List.mem_cons.mp member with rfl | older
    · exact effect
    · exact ih older

theorem cut {newer older : List Entry} {entry : Entry}
    (trace : Trace initial (newer ++ entry :: older) db) : Act initial older entry := by
  generalize shape : newer ++ entry :: older = whole at trace
  induction trace generalizing newer with
  | start => simp at shape
  | restart _ ih => exact ih shape
  | act _ earlier effect may ih =>
    cases newer with
    | nil =>
      rw [List.nil_append, List.cons.injEq] at shape
      obtain ⟨rfl, rfl⟩ := shape
      exact ⟨earlier, effect, may⟩
    | cons =>
      rw [List.cons_append, List.cons.injEq] at shape
      exact ih shape.2

end Trace

/-! ## The control file -/

/-- What a restart needs of the data it finds: in the shards a row has a lease
exactly when it is claimed, in the control file only claimed rows have one (its
older rows may predate leases), and no stored lease is drawn again. -/
structure Database.Sound (db : Database) : Prop where
  leased :
    ∀ index, ∀ row ∈ (db.messages (.shard index)).rows,
      row.lease.isSome = true ↔ row.status = .processing
  controlLeased :
    ∀ row ∈ (db.messages .control).rows, row.lease.isSome = true → row.status = .processing
  issued :
    ∀ store, ∀ row ∈ (db.messages store).rows, ∀ lease, row.lease = some lease → lease ∈ db.issued

theorem Database.sound_empty : Database.empty.Sound where
  leased := by
    intro index row member
    cases member
  controlLeased := by
    intro row member
    cases member
  issued := by
    intro store row member
    cases member

theorem Call.Updates.control {call : Call} {statement : Update}
    (updates : call.Updates .control statement) : statement = .recover := by
  cases statement <;> simp_all [Call.Updates]

theorem Effect.control_cases {before after : Database} {request : Action} {answer : Reply request}
    {call : Call} {row : MessageRow} (effect : Effect before request answer after)
    (allowed : call.Allows request) (member : row ∈ (after.messages .control).rows) :
    ∃ stored ∈ (before.messages .control).rows,
      row = stored ∨ row = { stored with status := .pending, lease := none } := by
  rcases effect.rows_after member with ⟨stored, listed, moves⟩ | created
  · refine ⟨stored, listed, ?_⟩
    cases moves with
    | same => exact .inl rfl
    | updated _ _ asked =>
      subst asked
      obtain rfl := Call.Updates.control allowed
      exact .inr rfl
    | delivered _ _ asked =>
      subst asked
      exact absurd rfl allowed.2
  · cases created with
    | enqueued _ item asked listed =>
      subst asked
      exact Store.noConfusion (allowed.2 item listed)
    | copied _ asked =>
      subst asked
      exact Store.noConfusion allowed.2

namespace Trace

variable {initial db : Database} {history : List Entry}

theorem control_leased (sound : initial.Sound) (trace : Trace initial history db) :
    ∀ row ∈ (db.messages .control).rows, row.lease.isSome = true → row.status = .processing := by
  induction trace with
  | start => exact sound.controlLeased
  | restart _ ih => exact ih
  | act _ _ effect may ih =>
    intro row member leased
    obtain ⟨stored, listed, rfl | rfl⟩ := effect.control_cases may.1 member
    · exact ih row listed leased
    · cases leased

/-- Once its claims are reset, no row of the control file is claimed. -/
theorem control_unclaimed (trace : Trace initial history db) {reset : Entry}
    {affected : List MessageRow} (performed : reset ∈ history)
    (asked : reset.exchange = ⟨.sql (.update .control .recover), Except.ok affected⟩) :
    ∀ row ∈ (db.messages .control).rows, row.status ≠ .processing := by
  induction trace with
  | start => cases performed
  | restart _ ih => exact ih performed
  | act _ _ effect may ih =>
    intro row member
    rcases List.mem_cons.mp performed with rfl | older
    · obtain ⟨thread, call, request, answer, before, after⟩ := reset
      cases asked
      dsimp only at effect member
      cases effect with
      | updated =>
        rw [Database.setMessages_messages_self] at member
        obtain ⟨stored, listed, rfl⟩ := Update.mem_execute.mp member
        unfold Update.rewrite
        split
        · simp [Update.set]
        · next unmatched => simpa [Update.guard] using unmatched
      | other _ _ _ harmless => exact harmless.elim
    · obtain ⟨stored, listed, rfl | rfl⟩ := effect.control_cases may.1 member
      · exact ih older row listed
      · simp

variable {row : MessageRow} {thread : Nat}

theorem mem_of_mem_arrange {order : List String} {rows : List MessageRow}
    (member : row ∈ arrange order rows) : row ∈ rows := by
  obtain ⟨id, _, found⟩ := List.mem_filterMap.mp member
  exact List.mem_of_find?_eq_some found

/-- A row the migration copies comes from the control file, after the claims
there were reset. -/
theorem copied_source (trace : Trace initial history db)
    (copied : CopiedFrom (ownPath thread history) row) :
    ∃ newer listing older source, history = newer ++ listing :: older ∧
        source ∈ (listing.before.messages .control).rows ∧
        source.status ≠ .processing ∧
        row = { source with id := Db.migratedId source } := by
  obtain ⟨rows, source, newer, older, split, ⟨affected, reset⟩, listed, rfl⟩ := copied
  obtain ⟨after, listing, before, rfl, _, asked, path⟩ := exists_split_of_ownPath split
  obtain ⟨earlier, effect, _⟩ := trace.cut
  rw [← path] at reset
  obtain ⟨resetting, performed, _, resetAsked⟩ := exists_performed_of_mem_ownPath reset
  have stored : source ∈ (listing.before.messages .control).rows := by
    obtain ⟨_, call, request, answer, state, _⟩ := listing
    cases asked
    dsimp only at effect ⊢
    cases effect with
    | listed => exact mem_of_mem_arrange listed
    | other _ _ _ _ _ _ unlisted => exact absurd rfl (unlisted .control)
  exact ⟨after, listing, before, source, rfl, stored,
    earlier.control_unclaimed performed resetAsked source stored, rfl⟩

theorem copied_unclaimed (sound : initial.Sound) (trace : Trace initial history db)
    (copied : CopiedFrom (ownPath thread history) row) :
    row.status ≠ .processing ∧ row.lease = none := by
  obtain ⟨newer, listing, older, source, rfl, stored, unclaimed, rfl⟩ := trace.copied_source copied
  refine ⟨unclaimed, ?_⟩
  rw [← Option.not_isSome_iff_eq_none]
  intro leased
  exact unclaimed (trace.cut.earlier.control_leased sound source stored leased)

theorem created_unclaimed (sound : initial.Sound) (trace : Trace initial history db) {call : Call}
    {request : Action} {store : Store} (may : call.May (ownPath thread history) request)
    (created : Created request store row) :
    row.status ≠ .processing ∧ row.lease = none := by
  cases created with
  | enqueued => simp [EnqueueInput.row]
  | copied _ asked =>
    subst asked
    exact trace.copied_unclaimed sound may.2

end Trace

end CanglingBroker
