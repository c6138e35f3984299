import CanglingBroker.Database.Trace

/-!
# Leases

A claim marks the rows it takes with an identifier it has just drawn, which no other claim
uses: `Disciplined` is that argument as an invariant.  A stored row is leased exactly while
it is claimed, and its attempts do not change while it carries one lease.
-/

namespace CanglingBroker

open Foundation

def Action.claimLease : Action → Option String
  | .sql (.update _ (.claimBatch lease _ _ _ _)) => some lease
  | .sql (.update _ (.claimOne lease _ _)) => some lease
  | _ => none

def Database.Carries (db : Database) (lease : String) : Prop :=
  ∃ store, ∃ row ∈ (db.messages store).rows, row.lease = some lease

def Holds (thread : Nat) (history : List Entry) (lease : String) : Prop :=
  ∃ older, ownPath thread history = ⟨.access .newUuid, lease⟩ :: older

/-- The states a run has been in, as far as actions saw them. -/
def visited (history : List Entry) (db : Database) : List Database :=
  db :: history.map (·.before)

/-! ## One step -/

theorem verdict_ne_processing (attempts maxAttempts : Int) :
    verdict attempts maxAttempts ≠ .processing := by
  unfold verdict
  split <;> simp

variable {lease : String} {request : Action}

/-- A row that carries a lease after an action carried it before, otherwise
unchanged in status and attempts, or was just claimed under it. -/
theorem Moves.lease_cases {store : Store} {row moved : MessageRow}
    (moves : Moves request store row moved) (carried : moved.lease = some lease) :
    (row.lease = some lease ∧ moved.status = row.status ∧ moved.attempts = row.attempts) ∨
      (request.claimLease = some lease ∧ row.status = .pending ∧
        moved.status = .processing ∧ moved.attempts = row.attempts + 1) := by
  cases moves with
  | same => exact .inl ⟨carried, rfl, rfl⟩
  | delivered => cases carried
  | updated statement _ asked matched =>
    subst asked
    cases statement with
    | renew => exact .inl ⟨carried, rfl, rfl⟩
    | claimBatch | claimOne =>
      simp only [Update.guard, Bool.and_eq_true, decide_eq_true_eq] at matched
      exact .inr ⟨carried, matched.2, rfl, rfl⟩
    | dropPending | dropClaimed | reclaim | release | deliver | fail | recover => cases carried

/-- A move keeps the lease in step with the status. -/
theorem Moves.leased_iff {call : Call} {path : Path} {store : Store}
    {row moved : MessageRow} (moves : Moves request store row moved)
    (grounded : Grounded call path request)
    (leased : row.lease.isSome = true ↔ row.status = .processing) :
    moved.lease.isSome = true ↔ moved.status = .processing := by
  cases moves with
  | same => exact leased
  | delivered => simp [MessageRow.acknowledged]
  | updated statement _ asked =>
    subst asked
    cases statement with
    | renew => exact leased
    | fail =>
      obtain ⟨read, maxAttempts, _, _, rfl⟩ := grounded
      simp [Update.set, verdict_ne_processing]
    | claimBatch | claimOne | dropPending | dropClaimed | reclaim | release | deliver | recover =>
      simp [Update.set]

theorem Call.May.holds {call : Call} {thread : Nat} {history : List Entry}
    (may : call.May (ownPath thread history) request) (claims : request.claimLease = some lease) :
    Holds thread history lease := by
  unfold Action.claimLease at claims
  split at claims
  · cases claims
    exact may.2
  · cases claims
    exact may.2
  · cases claims

theorem Effect.issued_mono {before after : Database} {answer : Reply request}
    (effect : Effect before request answer after) (known : lease ∈ before.issued) :
    lease ∈ after.issued := by
  cases effect with
  | drawn uuid => exact List.mem_cons_of_mem uuid known
  | other _ _ _ _ _ _ _ _ sameIssued =>
    rw [sameIssued]
    exact known
  | updated | delivered | enqueued | copied | removed | held | listed | refused => exact known

/-- What a thread holds after an action: what it has just drawn, or, for the
other threads, what they held. -/
theorem Holds.cases_cons {thread : Nat} {entry : Entry} {history : List Entry}
    (holds : Holds thread (entry :: history) lease) :
    (thread = entry.thread ∧ entry.exchange = ⟨.access .newUuid, lease⟩) ∨
      (thread ≠ entry.thread ∧ Holds thread history lease) := by
  obtain ⟨older, path⟩ := holds
  by_cases own : entry.thread = thread
  · subst own
    rw [ownPath_cons_self, List.cons.injEq] at path
    exact .inl ⟨rfl, path.1⟩
  · rw [ownPath_cons_of_ne own] at path
    exact .inr ⟨Ne.symm own, older, path⟩

theorem Effect.fresh_of_drawn {entry : Entry}
    (effect : Effect entry.before entry.request entry.answer entry.after)
    (drew : entry.exchange = ⟨.access .newUuid, lease⟩) :
    lease ∉ entry.before.issued ∧ lease ∈ entry.after.issued ∧ entry.request.claimLease = none := by
  obtain ⟨thread, call, request, answer, before, after⟩ := entry
  cases drew
  dsimp only at effect ⊢
  cases effect with
  | drawn _ fresh => exact ⟨fresh, .head _, rfl⟩
  | other _ _ _ _ notDrawn => exact absurd rfl notDrawn

/-! ## Whole runs -/

/-- The discipline of leases over a run. -/
structure Disciplined (history : List Entry) (db : Database) : Prop where
  leased :
    ∀ index, ∀ row ∈ (db.messages (.shard index)).rows,
      row.lease.isSome = true ↔ row.status = .processing
  issued :
    ∀ state ∈ visited history db, ∀ lease, state.Carries lease → lease ∈ db.issued
  drawn : ∀ thread lease, Holds thread history lease → lease ∈ db.issued
  sole :
    ∀ thread other lease, Holds thread history lease → Holds other history lease → thread = other
  unused :
    ∀ thread lease, Holds thread history lease → ∀ state ∈ visited history db, ¬ state.Carries lease

namespace Trace

variable {initial db : Database} {history : List Entry} {entry : Entry}

theorem carries_cases (sound : initial.Sound) {lease : String}
    (act : Act initial history entry) (carries : entry.after.Carries lease) :
    entry.before.Carries lease ∨ entry.request.claimLease = some lease := by
  obtain ⟨earlier, effect, may⟩ := act
  obtain ⟨store, row, member, carried⟩ := carries
  rcases effect.rows_after member with ⟨stored, listed, moves⟩ | created
  · rcases moves.lease_cases carried with ⟨old, _⟩ | ⟨claimed, _⟩
    · exact .inl ⟨store, stored, listed, old⟩
    · exact .inr claimed
  · rw [(earlier.created_unclaimed sound may created).2] at carried
    cases carried

theorem disciplined_act (sound : initial.Sound) (act : Act initial history entry)
    (disciplined : Disciplined history entry.before) :
    Disciplined (entry :: history) entry.after := by
  have origin : ∀ {state lease}, state ∈ visited (entry :: history) entry.after →
      state.Carries lease → (∃ older ∈ visited history entry.before, older.Carries lease) ∨
          entry.request.claimLease = some lease := by
    intro state lease seen carries
    rcases List.mem_cons.mp seen with rfl | older
    · rcases carries_cases sound act carries with old | claimed
      · exact .inl ⟨entry.before, .head _, old⟩
      · exact .inr claimed
    · exact .inl ⟨state, older, carries⟩
  obtain ⟨earlier, effect, may⟩ := act
  constructor
  · intro index row member
    rcases effect.rows_after member with ⟨stored, listed, moves⟩ | created
    · exact moves.leased_iff may.2 (disciplined.leased index stored listed)
    · obtain ⟨unclaimed, unleased⟩ :=
        earlier.created_unclaimed sound may created
      simp [unclaimed, unleased]
  · intro state seen lease carries
    rcases origin seen carries with ⟨older, visitedOlder, old⟩ | claimed
    · exact effect.issued_mono (disciplined.issued older visitedOlder lease old)
    · exact
        effect.issued_mono (disciplined.drawn entry.thread lease (may.holds claimed))
  · intro thread lease holds
    rcases holds.cases_cons with ⟨_, drew⟩ | ⟨_, held⟩
    · exact (effect.fresh_of_drawn drew).2.1
    · exact effect.issued_mono (disciplined.drawn thread lease held)
  · -- two threads cannot hold one identifier: one of them drew it last
    intro thread other lease holds otherHolds
    rcases holds.cases_cons with ⟨rfl, drew⟩ | ⟨different, held⟩
    · rcases otherHolds.cases_cons with ⟨rfl, _⟩ | ⟨_, otherHeld⟩
      · rfl
      · exact
          absurd (disciplined.drawn other lease otherHeld) (effect.fresh_of_drawn drew).1
    · rcases otherHolds.cases_cons with ⟨rfl, drew⟩ | ⟨_, otherHeld⟩
      · exact
          absurd (disciplined.drawn thread lease held) (effect.fresh_of_drawn drew).1
      · exact disciplined.sole thread other lease held otherHeld
  · intro thread lease holds state seen carries
    rcases holds.cases_cons with ⟨rfl, drew⟩ | ⟨different, held⟩
    · obtain ⟨fresh, _, notClaim⟩ := effect.fresh_of_drawn drew
      rcases origin seen carries with ⟨older, visitedOlder, old⟩ | claimed
      · exact fresh (disciplined.issued older visitedOlder lease old)
      · rw [notClaim] at claimed
        cases claimed
    · rcases origin seen carries with ⟨older, visitedOlder, old⟩ | claimed
      · exact disciplined.unused thread lease held older visitedOlder old
      · exact
          different (disciplined.sole thread entry.thread lease held (may.holds claimed))

theorem disciplined (sound : initial.Sound) (trace : Trace initial history db) :
    Disciplined history db := by
  induction trace with
  | start =>
    refine ⟨sound.leased, ?_, ?_, ?_, ?_⟩
    · rintro state seen lease ⟨store, row, member, carried⟩
      obtain rfl : state = initial := by simpa [visited] using seen
      exact sound.issued store row member lease carried
    · rintro thread lease ⟨older, path⟩
      cases path
    · rintro thread other lease ⟨older, path⟩
      cases path
    · rintro thread lease ⟨older, path⟩
      cases path
  | @restart history db earlier ih =>
    have sameStates : ∀ {state lease}, state ∈ visited history db.restart →
        state.Carries lease → ∃ older ∈ visited history db, older.Carries lease := by
      intro state lease seen carries
      rcases List.mem_cons.mp seen with rfl | older
      · exact ⟨db, .head _, carries⟩
      · exact ⟨state, List.mem_cons_of_mem db older, carries⟩
    refine ⟨ih.leased, ?_, ih.drawn, ih.sole, ?_⟩
    · intro state seen lease carries
      obtain ⟨older, visitedOlder, old⟩ := sameStates seen carries
      exact ih.issued older visitedOlder lease old
    · intro thread lease holds state seen carries
      obtain ⟨older, visitedOlder, old⟩ := sameStates seen carries
      exact ih.unused thread lease holds older visitedOlder old
  | act _ earlier effect may ih => exact disciplined_act sound ⟨earlier, effect, may⟩ ih

theorem unused_of_claim (sound : initial.Sound) {lease : String}
    (earlier : Trace initial history entry.before)
    (may : entry.call.May (ownPath entry.thread history) entry.request)
    (claims : entry.request.claimLease = some lease) :
    ∀ state ∈ visited history entry.before, ¬ state.Carries lease :=
  (earlier.disciplined sound).unused entry.thread lease (may.holds claims)

theorem read_held (trace : Trace initial history db) {reading : Entry} {store : Store}
    {id lease : String} {row : MessageRow} (performed : reading ∈ history)
    (asked : reading.exchange = ⟨.sql (.selectHeld store id lease), Except.ok (some row)⟩) :
    row ∈ (reading.before.messages store).rows ∧ row.held id lease = true ∧
      reading.after = reading.before := by
  have effect := trace.effect_of_mem performed
  obtain ⟨_, call, request, answer, before, _⟩ := reading
  cases asked
  dsimp only at effect ⊢
  generalize found : (Except.ok (some row) : Except DbError (Option MessageRow)) = answer at effect
  cases effect with
  | held =>
    have same := Except.ok.inj found
    exact ⟨List.mem_of_find?_eq_some same.symm, List.find?_some same.symm, rfl⟩
  | refused => cases found
  | other _ _ _ _ _ unread => exact absurd rfl (unread store id lease)

/-- While a row carries one lease its attempts stay what a read of it under that
lease saw. -/
theorem attempts_of_read (sound : initial.Sound) (trace : Trace initial history db)
    {reading : Entry} {store : Store} {id lease : String} {row : MessageRow}
    (performed : reading ∈ history)
    (asked : reading.exchange = ⟨.sql (.selectHeld store id lease), Except.ok (some row)⟩) :
    ∀ current ∈ (db.messages store).rows, current.held id lease = true →
      current.attempts = row.attempts := by
  induction trace with
  | start => cases performed
  | restart _ ih => exact ih performed
  | act entry earlier effect may ih =>
    intro current member held
    obtain ⟨sameId, carried, claimed⟩ := MessageRow.held_iff.mp held
    obtain ⟨stored, rowHeld, unchanged⟩ :=
      (Trace.act entry earlier effect may).read_held performed asked
    obtain ⟨rowId, rowCarried, _⟩ := MessageRow.held_iff.mp rowHeld
    rcases List.mem_cons.mp performed with rfl | older
    · rw [unchanged] at member
      rw [Table.eq_of_primary_eq _ member stored (sameId.trans rowId.symm)]
    · rcases effect.rows_after member with ⟨previous, listed, moves⟩ | created
      · rcases moves.lease_cases carried with
          ⟨old, status, attempts⟩ | ⟨claims, _⟩
        · have previousHeld : previous.held id lease = true := by
            refine MessageRow.held_iff.mpr ⟨?_, old, ?_⟩
            · rw [← sameId]
              exact (congrArg Message.id moves.toMessage_eq).symm
            · rw [← status]
              exact claimed
          rw [attempts]
          exact ih older previous listed previousHeld
        · -- a new claim cannot use the lease the read has seen
          refine
            absurd ⟨store, row, stored, rowCarried⟩
              (earlier.unused_of_claim sound may claims reading.before ?_)
          exact .tail _ (List.mem_map_of_mem older)
      · rw [(earlier.created_unclaimed sound may created).2] at carried
        cases carried

end Trace

end CanglingBroker
