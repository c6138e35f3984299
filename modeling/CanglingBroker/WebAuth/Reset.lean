import CanglingBroker.WebAuth.Store

/-!
# A password reset and the old sessions

A reset stores the new hash and then deletes all sessions; a login reads the hash,
verifies it, and inserts its session.  A session that was verified against the old hash
is gone after the reset as long as it was inserted before the deletion.  A login that
is overtaken by the whole reset between its reading and its insertion is not.
-/

namespace CanglingBroker

open Foundation

/-! ## What a call's path says -/

def AuthCall.May (_call : AuthCall) (path : List (Exchange AuthAction AuthReply)) :
    AuthAction → Prop
  | .insertSession token _ => (⟨.newToken, token⟩ : Exchange AuthAction AuthReply) ∈ path
  | .upsertHash _ => ∀ exchange ∈ path, exchange.request ≠ .deleteSessions
  | _ => True

def StoresHash (exchange : Exchange AuthAction AuthReply) : Prop :=
  ∃ hash, exchange = ⟨.upsertHash hash, .ok ()⟩

def DeletesSessions (exchange : Exchange AuthAction AuthReply) : Prop :=
  exchange = ⟨.deleteSessions, .ok ()⟩

def AuthCall.Did (call : AuthCall) (path : List (Exchange AuthAction AuthReply))
    (outcome : AuthOutcome) : Prop :=
  (outcome = .saved →
    (∃ exchange ∈ path, StoresHash exchange) ∧ ∃ exchange ∈ path, DeletesSessions exchange) ∧
  ∀ token, call = .validSession token → outcome = .valid true → ∃ seen : Int,
      (⟨.selectSession token, .ok (some seen)⟩ : Exchange AuthAction AuthReply) ∈ path

theorem AuthCall.ensures_leave {password : String} {outcome : AuthOutcome}
    {path : List (Exchange AuthAction AuthReply)} (unsaved : outcome ≠ .saved) :
    Program.Ensures (AuthCall.login password).May (AuthCall.login password).Did path
      (WebAuth.leave outcome) :=
  ⟨trivial, fun _ => ⟨fun saved => absurd saved unsaved, nofun⟩⟩

theorem AuthCall.ensures_program (params : AuthParams) (call : AuthCall) :
    Program.Ensures call.May call.Did [] (call.program params) := by
  cases call with
  | setPassword =>
    rw [AuthCall.program, WebAuth.setPassword]
    split
    · exact ⟨nofun, nofun⟩
    · refine ⟨trivial, fun hashed => ?_⟩
      cases hashed with
      | error => exact ⟨nofun, nofun⟩
      | ok hash =>
        refine ⟨?_, fun stored => ?_⟩
        · intro exchange member
          rw [List.mem_singleton.mp member]
          nofun
        · cases stored with
          | error => exact ⟨nofun, nofun⟩
          | ok =>
            refine ⟨trivial, fun deleted => ?_⟩
            cases deleted with
            | error => exact ⟨nofun, nofun⟩
            | ok =>
              refine ⟨fun _ => ⟨?_, ?_⟩, nofun⟩
              · exact ⟨_, .tail _ (.head _), hash, rfl⟩
              · exact ⟨_, .head _, rfl⟩
  | login =>
    refine ⟨trivial, fun _ => ⟨trivial, fun found => ?_⟩⟩
    rcases found with _ | _ | hash
    · exact AuthCall.ensures_leave nofun
    · exact AuthCall.ensures_leave nofun
    · refine ⟨trivial, fun verified => ?_⟩
      rcases verified with _ | _ | _
      · exact AuthCall.ensures_leave nofun
      · exact AuthCall.ensures_leave nofun
      · refine ⟨trivial, fun token => ⟨trivial, fun now => ⟨?_, fun inserted => ?_⟩⟩⟩
        · exact .tail _ (.head _)
        · rcases inserted with _ | _
          · exact AuthCall.ensures_leave nofun
          · exact AuthCall.ensures_leave nofun
  | validSession =>
    refine ⟨trivial, fun found => ?_⟩
    rcases found with _ | _ | seen
    · exact ⟨nofun, nofun⟩
    · exact ⟨nofun, nofun⟩
    · refine ⟨trivial, fun now => ?_⟩
      simp only [Program.andThen]
      split
      · refine ⟨trivial, fun deleted => ?_⟩
        rcases deleted with _ | _ <;> exact ⟨nofun, nofun⟩
      · refine ⟨trivial, fun later => ⟨trivial, fun touched => ?_⟩⟩
        rcases touched with _ | _
        · exact ⟨nofun, nofun⟩
        · refine ⟨nofun, fun other same _ => ⟨seen, ?_⟩⟩
          cases same
          simp
  | logout =>
    refine ⟨trivial, fun deleted => ?_⟩
    rcases deleted with _ | _ <;> exact ⟨nofun, nofun⟩

/-! ## What a history says -/

/-- The part of a history since the login read the hash. -/
def sinceSelect (thread : Nat) (history : List AuthEntry) : List AuthEntry :=
  history.takeWhile fun entry =>
    !(decide (entry.thread = thread) && decide (entry.request = .selectHash))

def HasReset (history : List AuthEntry) : Prop :=
  ∃ stored ∈ history, ∃ deleted ∈ history,
    stored.thread = deleted.thread ∧ StoresHash stored.exchange ∧ DeletesSessions deleted.exchange

def Drew (thread : Nat) (token : String) (history : List AuthEntry) : Prop :=
  (⟨.newToken, token⟩ : Exchange AuthAction AuthReply) ∈ ownPath thread history

/-- No stored session was verified against a hash from before a reset that is over. -/
def SessionsCurrent (state : AuthState) (history : List AuthEntry) : Prop :=
  ∀ row ∈ state.sessions.rows, ∀ thread, Drew thread row.token history →
    ¬ HasReset (sinceSelect thread history)

def StoresSession (entry : AuthEntry) : Prop :=
  ∃ token lastSeen, entry.exchange = ⟨.insertSession token lastSeen, .ok ()⟩

/-- No login stores its session after a reset that began to be visible after the login
had read the hash, and is over. -/
def NotOvertaken (history : List AuthEntry) : Prop :=
  ∀ newer entry older, history = newer ++ entry :: older → StoresSession entry →
    ¬ HasReset (sinceSelect entry.thread older)

theorem hasReset_mono {small large : List AuthEntry} (contained : small ⊆ large)
    (reset : HasReset small) : HasReset large := by
  obtain ⟨stored, inStored, deleted, inDeleted, done⟩ := reset
  exact ⟨stored, contained inStored, deleted, contained inDeleted, done⟩

variable {history : List AuthEntry} {entry : AuthEntry}

/-- A reset is over with its deletion, unless one thread's deletion came before its
hash. -/
theorem hasReset_of_cons (keeps : ¬ DeletesSessions entry.exchange)
    (ordered : StoresHash entry.exchange →
      ∀ older ∈ history, older.thread = entry.thread → ¬ DeletesSessions older.exchange)
    (reset : HasReset (entry :: history)) : HasReset history := by
  obtain ⟨stored, inStored, deleted, inDeleted, same, stores, deletes⟩ := reset
  rcases List.mem_cons.mp inDeleted with rfl | olderDeleted
  · exact absurd deletes keeps
  · rcases List.mem_cons.mp inStored with rfl | olderStored
    · exact absurd deletes (ordered stores deleted olderDeleted same.symm)
    · exact ⟨stored, olderStored, deleted, olderDeleted, same, stores, deletes⟩

theorem sinceSelect_subset (thread : Nat) (history : List AuthEntry) :
    sinceSelect thread history ⊆ history :=
  (List.takeWhile_sublist _).subset

theorem sinceSelect_cons (thread : Nat) (entry : AuthEntry) (history : List AuthEntry) :
    sinceSelect thread (entry :: history) = [] ∨
      sinceSelect thread (entry :: history) = entry :: sinceSelect thread history := by
  unfold sinceSelect
  rw [List.takeWhile_cons]
  split
  · exact .inr rfl
  · exact .inl rfl

theorem not_hasReset_nil : ¬ HasReset [] := by
  rintro ⟨_, member, _⟩
  cases member

variable {thread : Nat} {token : String}

theorem drew_cons (drew : Drew thread token (entry :: history)) :
    (entry.thread = thread ∧ entry.exchange = ⟨.newToken, token⟩) ∨ Drew thread token history := by
  unfold Drew at drew
  by_cases own : entry.thread = thread
  · subst own
    rw [ownPath_cons_self] at drew
    rcases List.mem_cons.mp drew with same | drew
    · exact .inl ⟨rfl, same.symm⟩
    · exact .inr drew
  · rw [ownPath_cons_of_ne own] at drew
    exact .inr drew

theorem Drew.cons (drew : Drew thread token history) (entry : AuthEntry) :
    Drew thread token (entry :: history) := by
  unfold Drew at drew ⊢
  by_cases own : entry.thread = thread
  · subst own
    rw [ownPath_cons_self]
    exact .tail _ drew
  · rwa [ownPath_cons_of_ne own]

theorem Drew.append (drew : Drew thread token history) (newer : List AuthEntry) :
    Drew thread token (newer ++ history) := by
  induction newer with
  | nil => exact drew
  | cons entry _ ih => exact ih.cons entry

/-- What lies since a login's reading lies in the older part too, unless it is in the
newer one. -/
theorem mem_sinceSelect_of_append {newer older : List AuthEntry}
    (member : entry ∈ sinceSelect thread (newer ++ older)) :
    entry ∈ newer ∨ entry ∈ sinceSelect thread older := by
  unfold sinceSelect at member ⊢
  rw [List.takeWhile_append] at member
  split at member
  · exact List.mem_append.mp member
  · exact .inl ((List.takeWhile_sublist _).subset member)

theorem foreign_of_ownPath_append {newer older : List AuthEntry}
    (same : ownPath thread older = ownPath thread (newer ++ older)) :
    ∀ entry ∈ newer, entry.thread ≠ thread := by
  unfold ownPath at same
  rw [List.filter_append, List.map_append, List.self_eq_append_left, List.map_eq_nil_iff,
    List.filter_eq_nil_iff] at same
  intro entry member own
  exact same entry member (decide_eq_true own)

/-! ## What one action does -/

section Perform

variable {params : AuthParams} {choice : AuthChoice} {before after : AuthState}
  {request : AuthAction} {answer : AuthReply request}

/-- A stored session was there before, and not all sessions were deleted, or its insert
has just succeeded. -/
theorem session_cases (performed : authPerform params choice before request = some (answer, after))
    {row : SessionRow} (stored : row ∈ after.sessions.rows) :
    ((∃ old ∈ before.sessions.rows, old.token = row.token) ∧ ¬ DeletesSessions ⟨request, answer⟩) ∨
      (⟨request, answer⟩ : Exchange AuthAction AuthReply) =
        ⟨.insertSession row.token row.lastSeen, .ok ()⟩ := by
  cases request with
  | acquire | newToken | upsertHash =>
    dsimp only [authPerform] at performed
    split at performed <;> cases performed
    all_goals exact .inl ⟨⟨row, stored, rfl⟩, nofun⟩
  | release | now | verify | hash | selectHash | selectSession =>
    cases performed
    exact .inl ⟨⟨row, stored, rfl⟩, nofun⟩
  | insertSession =>
    dsimp only [authPerform] at performed
    split at performed <;> cases performed
    · exact .inl ⟨⟨row, stored, rfl⟩, nofun⟩
    · rcases Table.mem_of_mem_insertOrIgnore stored with old | ⟨rfl, _⟩
      · exact .inl ⟨⟨row, old, rfl⟩, nofun⟩
      · exact .inr rfl
  | touchSession =>
    dsimp only [authPerform] at performed
    split at performed <;> cases performed
    · exact .inl ⟨⟨row, stored, rfl⟩, nofun⟩
    · obtain ⟨old, member, rfl⟩ := Table.mem_update.mp stored
      exact .inl ⟨⟨old, member, (Table.primary_rewrite _ _ old).symm⟩, nofun⟩
  | deleteSession =>
    dsimp only [authPerform] at performed
    split at performed <;> cases performed
    · exact .inl ⟨⟨row, stored, rfl⟩, nofun⟩
    · exact .inl ⟨⟨row, (Table.mem_delete.mp stored).1, rfl⟩, nofun⟩
  | deleteSessions =>
    dsimp only [authPerform] at performed
    split at performed <;> cases performed
    · exact .inl ⟨⟨row, stored, rfl⟩, nofun⟩
    · exact absurd (Table.mem_delete.mp stored).2 (by simp)

theorem issued_cases (performed : authPerform params choice before request = some (answer, after)) :
    (after.issued = before.issued ∧ ∀ token,
      (⟨request, answer⟩ : Exchange AuthAction AuthReply) ≠ ⟨.newToken, token⟩) ∨
      ∃ token, token ∉ before.issued ∧ after.issued = token :: before.issued ∧
        (⟨request, answer⟩ : Exchange AuthAction AuthReply) = ⟨.newToken, token⟩ := by
  cases request with
  | newToken =>
    dsimp only [authPerform] at performed
    split at performed
    · cases performed
    · next fresh =>
      cases performed
      exact .inr ⟨choice.token, fresh, rfl, rfl⟩
  | release | now | verify | hash | selectHash | selectSession =>
    cases performed
    exact .inl ⟨rfl, nofun⟩
  | _ =>
    dsimp only [authPerform] at performed
    split at performed <;> cases performed <;> exact .inl ⟨rfl, nofun⟩

theorem stored_of_insert {token : String} {lastSeen : Int}
    (performed :
      authPerform params choice before (.insertSession token lastSeen) = some (.ok (), after)) :
    ⟨token, lastSeen⟩ ∈ after.sessions.rows := by
  dsimp only [authPerform] at performed
  split at performed
  · cases performed
  · next absent =>
    cases performed
    rw [Table.insertOrIgnore_rows, if_neg fun conflict => absent (.inr conflict)]
    exact List.mem_append_right _ (.head _)

end Perform

/-! ## Whole schedules -/

section Traces

variable {params : AuthParams} {initial current : AuthState} {history : List AuthEntry}

/-- Where tokens come from. -/
structure TokensKept (initial current : AuthState) (history : List AuthEntry) : Prop where
  issued : initial.issued ⊆ current.issued
  drawn : ∀ {thread token}, Drew thread token history →
    token ∈ current.issued ∧ token ∉ initial.issued
  single : ∀ {one other token}, Drew one token history → Drew other token history → one = other
  stored : ∀ row ∈ current.sessions.rows,
    row.token ∈ initial.issued ∨ ∃ thread, Drew thread row.token history

variable {entry : AuthEntry}

section

variable (allowed : entry.call.May (ownPath entry.thread history) entry.request)

include allowed

theorem drew_of_insert {token : String} {lastSeen : Int}
    (inserted : entry.exchange = ⟨.insertSession token lastSeen, .ok ()⟩) :
    Drew entry.thread token history := by
  have request : entry.request = .insertSession token lastSeen := congrArg Exchange.request inserted
  rw [request] at allowed
  exact allowed

theorem undeleted_of_store {part : List AuthEntry}
    (contained : part ⊆ history) (stores : StoresHash entry.exchange) :
    ∀ older ∈ part, older.thread = entry.thread → ¬ DeletesSessions older.exchange := by
  intro older member own deletes
  obtain ⟨hash, same⟩ := stores
  have request : entry.request = .upsertHash hash := congrArg Exchange.request same
  rw [request] at allowed
  exact allowed _ (mem_ownPath (contained member) own) (congrArg Exchange.request deletes)

theorem not_hasReset_cons {thread : Nat}
    (keeps : ¬ DeletesSessions entry.exchange) (current : ¬ HasReset (sinceSelect thread history)) :
    ¬ HasReset (sinceSelect thread (entry :: history)) := by
  rcases sinceSelect_cons thread entry history with empty | longer
  · rw [empty]
    exact not_hasReset_nil
  · rw [longer]
    exact fun reset => current (hasReset_of_cons keeps
      (undeleted_of_store allowed (sinceSelect_subset thread history)) reset)

end

theorem tokensKept_act {choice : AuthChoice} (kept : TokensKept initial entry.before history)
    (performed :
      authPerform params choice entry.before entry.request = some (entry.answer, entry.after))
    (allowed : entry.call.May (ownPath entry.thread history) entry.request) :
    TokensKept initial entry.after (entry :: history) := by
  have grows : entry.before.issued ⊆ entry.after.issued := by
    rcases issued_cases performed with ⟨same, _⟩ | ⟨token, _, same, _⟩
    · rw [same]
      exact fun _ member => member
    · rw [same]
      exact List.subset_cons_self _ _
  have fresh {token : String} (drawn : entry.exchange = ⟨.newToken, token⟩) :
      token ∉ entry.before.issued ∧ token ∈ entry.after.issued := by
    rcases issued_cases performed with ⟨_, never⟩ | ⟨drew, new, same, asked⟩
    · exact absurd drawn (never token)
    · cases (asked.symm.trans drawn : (⟨.newToken, drew⟩ : Exchange AuthAction AuthReply) = _)
      exact ⟨new, same ▸ (.head _)⟩
  refine ⟨fun _ member => grows (kept.issued member), ?_, ?_, ?_⟩
  · intro thread token drew
    rcases drew_cons drew with ⟨_, drawn⟩ | drew
    · obtain ⟨new, issued⟩ := fresh drawn
      exact ⟨issued, fun old => new (kept.issued old)⟩
    · exact ⟨grows (kept.drawn drew).1, (kept.drawn drew).2⟩
  · intro one other token drewOne drewOther
    rcases drew_cons drewOne with ⟨rfl, drawn⟩ | drewOne
    · rcases drew_cons drewOther with ⟨same, _⟩ | drewOther
      · exact same
      · exact absurd (kept.drawn drewOther).1 (fresh drawn).1
    · rcases drew_cons drewOther with ⟨_, drawn⟩ | drewOther
      · exact absurd (kept.drawn drewOne).1 (fresh drawn).1
      · exact kept.single drewOne drewOther
  · intro row stored
    rcases session_cases performed stored with ⟨⟨old, member, same⟩, _⟩ | inserted
    · rw [← same]
      exact (kept.stored old member).imp_right fun ⟨thread, drew⟩ => ⟨thread, drew.cons entry⟩
    · exact .inr ⟨entry.thread, (drew_of_insert allowed inserted).cons entry⟩

theorem tokensKept_of_trace (known : ∀ row ∈ initial.sessions.rows, row.token ∈ initial.issued)
    (trace : Pool.Trace (authComponent params) AuthCall.May initial history current) :
    TokensKept initial current history := by
  induction trace with
  | start =>
    refine ⟨fun _ member => member, fun drew => ?_, fun drew => ?_, ?_⟩
    · cases drew
    · cases drew
    · exact fun row stored => .inl (known row stored)
  | crash _ ih => exact ⟨ih.issued, ih.drawn, ih.single, ih.stored⟩
  | act _ _ _ performed allowed ih => exact tokensKept_act ih performed allowed

/-- No session outlives a reset its login began before, as long as no login is
overtaken. -/
theorem sessionsCurrent_of_trace (known : ∀ row ∈ initial.sessions.rows, row.token ∈ initial.issued)
    (trace : Pool.Trace (authComponent params) AuthCall.May initial history current)
    (inTime : NotOvertaken history) : SessionsCurrent current history := by
  induction trace with
  | start =>
    intro row _ thread drew
    cases drew
  | crash _ ih => exact ih inTime
  | @act older entry choice earlier performed allowed ih =>
    have kept := tokensKept_of_trace known earlier
    have before : SessionsCurrent entry.before older := by
      refine ih fun newer inserter oldest split => ?_
      exact inTime (entry :: newer) inserter oldest (by rw [split]; rfl)
    intro row stored thread drew
    rcases session_cases performed stored with ⟨⟨old, member, same⟩, keeps⟩ | inserted
    · rcases drew_cons drew with ⟨_, drawn⟩ | drew
      · -- a stored session's token cannot be drawn now
        rcases issued_cases performed with ⟨_, never⟩ | ⟨token, new, _, asked⟩
        · exact absurd drawn (never row.token)
        · cases (asked.symm.trans drawn : (⟨.newToken, token⟩ : Exchange AuthAction AuthReply) = _)
          rw [← same] at new
          rcases kept.stored old member with initially | ⟨drawer, drew⟩
          · exact absurd (kept.issued initially) new
          · exact absurd (kept.drawn drew).1 new
      · rw [← same] at drew
        exact not_hasReset_cons allowed keeps (before old member thread drew)
    · have drewOwn := drew_of_insert allowed inserted
      have own : thread = entry.thread := by
        rcases drew_cons drew with ⟨same, _⟩ | drew
        · exact same.symm
        · exact kept.single drew drewOwn
      have keeps : ¬ DeletesSessions entry.exchange := by
        intro deletes
        cases inserted.symm.trans deletes
      rw [own]
      exact not_hasReset_cons allowed keeps
        (inTime [] entry older rfl ⟨row.token, row.lastSeen, inserted⟩)

theorem sinceSelect_insert (stores : StoresSession entry) (thread : Nat) :
    sinceSelect thread (entry :: history) = entry :: sinceSelect thread history := by
  obtain ⟨token, lastSeen, inserted⟩ := stores
  have request : entry.request ≠ .selectHash := by
    rw [show entry.request = .insertSession token lastSeen from congrArg Exchange.request inserted]
    nofun
  unfold sinceSelect
  rw [List.takeWhile_cons, if_pos]
  rw [decide_eq_false request, Bool.and_false]
  rfl

/-- The sessions are current after every action exactly when no login is overtaken. -/
theorem sessionsCurrent_iff (known : ∀ row ∈ initial.sessions.rows, row.token ∈ initial.issued)
    (trace : Pool.Trace (authComponent params) AuthCall.May initial history current) :
    (∀ newer entry older, history = newer ++ entry :: older →
        SessionsCurrent entry.after (entry :: older)) ↔
      NotOvertaken history := by
  constructor
  · intro always newer entry older split stores reset
    rw [split] at trace
    obtain ⟨_, ⟨choice, performed⟩, allowed⟩ := trace.cut
    have current := always newer entry older split
    obtain ⟨thread, call, request, answer, before, after⟩ := entry
    obtain ⟨token, lastSeen, inserted⟩ := stores
    cases inserted
    have succeeded :
        authPerform params choice before (.insertSession token lastSeen) = some (.ok (), after) :=
      performed
    refine current ⟨token, lastSeen⟩ (stored_of_insert succeeded) thread
      (Drew.cons (drew_of_insert allowed rfl) _) ?_
    rw [sinceSelect_insert ⟨token, lastSeen, rfl⟩]
    exact hasReset_mono (List.subset_cons_self _ _) reset
  · intro inTime newer entry older split
    rw [split] at trace
    obtain ⟨earlier, ⟨choice, performed⟩, allowed⟩ := trace.cut
    refine sessionsCurrent_of_trace known (.act entry choice earlier performed allowed) ?_
    intro between inserter oldest cut
    exact inTime (newer ++ between) inserter oldest (by rw [split, cut, List.append_assoc])

/-- A reset that is over shows since the reading of any login that read before it. -/
theorem hasReset_of_saved {thread resetter : Nat} {stored deleted : AuthEntry}
    {older newer : List AuthEntry}
    (trace : Pool.Trace (authComponent params) AuthCall.May initial (newer ++ older) current)
    (foreign : ∀ entry ∈ newer, entry.thread ≠ resetter)
    (since : stored ∈ sinceSelect thread (newer ++ older)) (storedBy : stored.thread = resetter)
    (stores : StoresHash stored.exchange) (member : deleted ∈ newer ++ older)
    (deletedBy : deleted.thread = resetter) (deletes : DeletesSessions deleted.exchange) :
    HasReset (sinceSelect thread older) := by
  have storedLate : stored ∈ sinceSelect thread older :=
    (mem_sinceSelect_of_append since).resolve_left fun early =>
      foreign stored early storedBy
  have deletedOlder : deleted ∈ older :=
    (List.mem_append.mp member).resolve_left fun early => foreign deleted early deletedBy
  refine ⟨stored, storedLate, deleted, ?_, storedBy.trans deletedBy.symm, stores, deletes⟩
  -- the deletion came after the hash, which came after the reading
  have split : sinceSelect thread older ++ older.dropWhile _ = older :=
    List.takeWhile_append_dropWhile
  by_contra early
  have behind := (List.mem_append.mp (split.symm ▸ deletedOlder)).resolve_left early
  obtain ⟨front, back, cut⟩ := List.append_of_mem storedLate
  rw [← split, cut, List.append_assoc, List.cons_append, ← List.append_assoc] at trace
  obtain ⟨_, _, allowed⟩ := trace.cut
  exact undeleted_of_store allowed (fun _ inside => inside) stores deleted
    (List.mem_append_right back behind) (deletedBy.trans storedBy.symm) deletes

theorem stored_of_select {choice : AuthChoice} {token : String} {seen : Int}
    (performed :
      authPerform params choice entry.before entry.request = some (entry.answer, entry.after))
    (read : entry.exchange = ⟨.selectSession token, .ok (some seen)⟩) :
    ∃ row ∈ entry.before.sessions.rows, row.token = token := by
  obtain ⟨thread, call, request, answer, before, after⟩ := entry
  cases read
  have answered : (if choice.fails then
      .error ()
        else
          .ok ((before.sessions.rows.find? (SessionRow.isFor token)).map SessionRow.lastSeen) :
        Except Unit (Option Int)) = .ok (some seen) :=
    congrArg Prod.fst (Option.some.inj performed)
  split at answered
  · cases answered
  · obtain ⟨row, found, _⟩ := Option.map_eq_some_iff.mp (Except.ok.inj answered)
    have matched : SessionRow.isFor token row = true := List.find?_some found
    exact ⟨row, List.mem_of_find?_eq_some found, of_decide_eq_true matched⟩

end Traces

def AuthService.before (service : AuthService)
    (returned : Finished AuthCall AuthOutcome) : List AuthEntry :=
  service.history.drop (service.history.length - returned.born)

/-- After every action the stored sessions are current, exactly when no login is
overtaken by a reset; and then a session is not valid for a call that begins after a
reset whose hash is newer than the one the session's login read. -/
theorem passwordReset_ends_sessions_iff (params : AuthParams) (initial : AuthState)
    (known : ∀ row ∈ initial.sessions.rows, row.token ∈ initial.issued) (events : List AuthEvent)
    (service : AuthService) (scheduled : authSchedule params initial events = some service) :
    ((∀ newer entry older, service.history = newer ++ entry :: older →
        SessionsCurrent entry.after (entry :: older)) ↔
      NotOvertaken service.history) ∧
    (NotOvertaken service.history → ∀ reset ∈ service.finished, reset.result = .saved →
      ∀ check ∈ service.finished, ∀ token, check.call = .validSession token →
        ownPath reset.thread (service.before check) = ownPath reset.thread service.history →
      ∀ login, Drew login token service.history → (∃ stored ∈ sinceSelect login service.history,
          stored.thread = reset.thread ∧ StoresHash stored.exchange) →
        check.result ≠ .valid true) := by
  have accounted := Pool.accounted_replay (AuthCall.ensures_program params) scheduled
  have trace := Pool.trace_of_replay (AuthCall.ensures_program params) scheduled
  refine ⟨sessionsCurrent_iff known trace, ?_⟩
  intro inTime reset isReset saved check isCheck token asked settled login drew stored valid
  obtain ⟨stored, since, storedBy, stores⟩ := stored
  obtain ⟨_, exchange, onPath, deletes⟩ := (accounted.finished reset isReset).1 saved
  obtain ⟨deleted, deletedMember, deletedBy, rfl⟩ := exists_performed_of_mem_ownPath onPath
  obtain ⟨seen, selected⟩ := (accounted.finished check isCheck).2 token asked valid
  obtain ⟨read, readMember, readBy, isRead⟩ := exists_performed_of_mem_ownPath selected
  obtain ⟨newer, older, split⟩ := List.append_of_mem readMember
  -- the reading is younger than the call
  have started := accounted.finishedBorn check isCheck
  have young : check.born ≤ older.length := by
    by_contra elder
    rw [split] at started
    exact started.foreign (Nat.not_le.mp elder) read (.head _) readBy
  -- so the reset had done everything before it
  have whole : service.history = (newer ++ [read]) ++ older := by
    rw [split, List.append_assoc]
    rfl
  have beginning : service.before check = older.drop (older.length - check.born) := by
    have place : service.history.length - check.born =
        (newer ++ [read]).length + (older.length - check.born) := by
      rw [whole, List.length_append]
      omega
    rw [AuthService.before, place, whole, List.drop_length_add_append]
  have foreign : ∀ entry ∈ newer ++ [read], entry.thread ≠ reset.thread := by
    have parts : service.history = ((newer ++ [read]) ++ older.take (older.length - check.born)) ++
        older.drop (older.length - check.born) := by
      rw [whole, List.append_assoc _ (older.take _), List.take_append_drop]
    rw [beginning, parts] at settled
    intro entry member
    exact foreign_of_ownPath_append settled entry (List.mem_append_left _ member)
  rw [whole] at since deletedMember drew
  have traced := trace
  rw [whole] at traced
  have reset := hasReset_of_saved traced foreign since storedBy stores deletedMember deletedBy
    deletes
  -- and the session the reading found is not current
  have cut := trace
  rw [split] at cut
  obtain ⟨earlier, ⟨choice, performed⟩, _⟩ := cut.cut
  obtain ⟨row, rowStored, rowToken⟩ := stored_of_select performed isRead
  have kept := tokensKept_of_trace known earlier
  have later := tokensKept_of_trace known traced
  have drewOlder : Drew login row.token older := by
    rcases kept.stored row rowStored with initially | ⟨other, drewOther⟩
    · rw [rowToken] at initially
      exact absurd initially (later.drawn drew).2
    · rw [rowToken] at drewOther ⊢
      rwa [later.single drew (drewOther.append (newer ++ [read]))]
  refine sessionsCurrent_of_trace known earlier ?_ row rowStored login drewOlder reset
  intro between inserter oldest inner
  exact inTime (newer ++ read :: between) inserter oldest (by
    rw [split, inner, List.append_assoc]
    rfl)

/-! ## A login that is overtaken -/

def plainParams : AuthParams where
  validate := fun _ => none
  hash := fun password _ => password
  verify := fun password hash => decide (password = hash)

def oldPassword : AuthState where
  admin := some "old"
  sessions := Table.empty
  slots := loginSlots
  issued := []

/-- A login, then a reset, then a check of the login's session. -/
def loginThenReset : List AuthEvent :=
  [.spawn (.login "old"), .advance 0 {}, .advance 0 {}, .advance 0 {},
    .advance 0 { token := "t" }, .advance 0 {}, .advance 0 {}, .advance 0 {},
    .spawn (.setPassword "new"), .advance 1 {}, .advance 1 {}, .advance 1 {},
    .spawn (.validSession "t"), .advance 2 {}]

def AuthAction.storesSession : AuthAction → Bool
  | .insertSession .. => true
  | _ => false

def AuthAction.storesHash : AuthAction → Bool
  | .upsertHash _ => true
  | _ => false

theorem notOvertaken_of_pairwise {history : List AuthEntry}
    (apart :
      history.Pairwise fun newer older =>
        newer.request.storesSession = true → older.request.storesHash = false) :
    NotOvertaken history := by
  rintro newer entry older rfl ⟨_, _, stores⟩ ⟨stored, since, _, _, _, ⟨_, storesHash⟩, _⟩
  have member := (List.takeWhile_sublist _).subset since
  have unstored := (List.pairwise_cons.mp (List.pairwise_append.mp apart).2.1).1 stored member
  cases entry
  cases stored
  cases stores
  cases storesHash
  exact Bool.noConfusion (unstored rfl)

/-- The session is not valid when the login was over before the reset. -/
theorem passwordReset_ends_session :
    ∃ service, authSchedule plainParams oldPassword loginThenReset = some service ∧
      NotOvertaken service.history ∧
      (∀ newer entry older, service.history = newer ++ entry :: older →
        SessionsCurrent entry.after (entry :: older)) ∧
      ∃ check ∈ service.finished, check.call = .validSession "t" ∧ check.result = .valid false := by
  obtain ⟨service, scheduled, apart, answered⟩ : ∃ service,
      authSchedule plainParams oldPassword loginThenReset = some service ∧
        (service.history.Pairwise fun newer older =>
          newer.request.storesSession = true → older.request.storesHash = false) ∧
        ∃ check ∈ service.finished, check.call = .validSession "t" ∧ check.result = .valid false :=
    exists_some_of_check (by decide +kernel)
  have inTime := notOvertaken_of_pairwise apart
  have current := passwordReset_ends_sessions_iff plainParams oldPassword nofun _ _ scheduled
  exact ⟨service, scheduled, inTime, current.1.mpr inTime, answered⟩

/-- The reset happens between the login's verification and its insertion. -/
def resetInLogin : List AuthEvent :=
  [.spawn (.login "old"), .advance 0 {}, .advance 0 {}, .advance 0 {},
    .spawn (.setPassword "new"), .advance 1 {}, .advance 1 {}, .advance 1 {},
    .advance 0 { token := "t" }, .advance 0 {}, .advance 0 {}, .advance 0 {},
    .spawn (.validSession "t"), .advance 2 {}, .advance 2 {}, .advance 2 {}, .advance 2 {}]

/-- The session that was verified against the old password is valid after the reset. -/
theorem passwordReset_misses_session :
    ∃ service, authSchedule plainParams oldPassword resetInLogin = some service ∧
      ∃ reset ∈ service.finished, reset.result = .saved ∧
      ∃ check ∈ service.finished, check.call = .validSession "t" ∧
        ownPath reset.thread (service.before check) = ownPath reset.thread service.history ∧
        Drew 0 "t" service.history ∧
        (∃ stored ∈ sinceSelect 0 service.history,
          stored.thread = reset.thread ∧ StoresHash stored.exchange) ∧
        check.result = .valid true := by
  refine ⟨_, rfl, ⟨1, .setPassword "new", 3, .saved⟩, ?_, rfl,
    ⟨2, .validSession "t", 10, .valid true⟩, ?_, rfl, rfl, ?_, ?_, rfl⟩
  · exact .tail _ (.tail _ (.head _))
  · exact .head _
  · exact List.mem_of_getElem? (i := 3) rfl
  · refine ⟨_, List.mem_of_getElem? (i := 9) rfl, rfl, "new", rfl⟩

end CanglingBroker
