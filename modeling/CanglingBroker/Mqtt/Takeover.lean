import CanglingBroker.Foundation.Dict

/-!
# Taking over a client identifier

`ClientRegistry` of `mqtt/mod.rs` and the steps of `run_session` around it, which are
separate steps of separate tasks.  Sessions are numbered in the order in which they entered
the registry; the number stands for the token of the session.
-/

namespace CanglingBroker
namespace Mqtt

open Foundation

/-- How far `run_session` is: it has still to cancel the session it displaced, is in its
loop, has removed its entry, or has also cancelled itself. -/
inductive ClientPhase where
  | displacing (previous : Option Nat)
  | looping
  | removed
  | over
  deriving DecidableEq, Repr

def ClientPhase.entered : ClientPhase → Bool
  | .displacing _ | .looping => true
  | .removed | .over => false

structure ClientSession where
  clientId : String
  phase : ClientPhase
  cancelled : Bool
  deriving DecidableEq, Repr

/-- The registry, and the sessions that have entered it: those with a number below
`entered`. -/
structure Clients where
  registry : Dict String Nat := ∅
  sessions : Nat → ClientSession := fun _ => ⟨"", .over, false⟩
  entered : Nat := 0

/-- What a task does next.  A token is also cancelled from outside, when the broker shuts
down or the writer of the session fails. -/
inductive ClientEvent where
  | connect (clientId : String)
  | displace (session : Nat)
  | remove (session : Nat)
  | finish (session : Nat)
  | cancel (session : Nat)
  deriving DecidableEq, Repr

namespace Clients

def cancel (clients : Clients) (session : Nat) : Clients :=
  { clients with
    sessions :=
      Function.update clients.sessions session { clients.sessions session with cancelled := true } }

def turn (clients : Clients) (session : Nat) (phase : ClientPhase) : Clients :=
  { clients with
    sessions :=
      Function.update clients.sessions session { clients.sessions session with phase := phase } }

def connect (clients : Clients) (clientId : String) : Clients where
  registry := clients.registry.insert clientId clients.entered
  sessions :=
    Function.update clients.sessions clients.entered
      ⟨clientId, .displacing (clients.registry.lookup clientId), false⟩
  entered := clients.entered + 1

def removeIf (clients : Clients) (clientId : String) (token : Nat) : Clients :=
  { clients with
    registry :=
      if clients.registry.lookup clientId = some token then
        clients.registry.erase clientId
      else
        clients.registry }

def step (clients : Clients) : ClientEvent → Option Clients
  | .connect clientId => some (clients.connect clientId)
  | .displace session =>
    match (clients.sessions session).phase with
    | .displacing none => some (clients.turn session .looping)
    | .displacing (some old) => some ((clients.cancel old).turn session .looping)
    | _ => none
  | .remove session =>
    if (clients.sessions session).phase = .looping then
      some ((clients.removeIf (clients.sessions session).clientId session).turn session .removed)
    else
      none
  | .finish session =>
    if (clients.sessions session).phase = .removed then
      some ((clients.cancel session).turn session .over)
    else
      none
  | .cancel session => some (clients.cancel session)

/-- The registered session of a client identifier is the latest that entered, unless it
removed itself. -/
def Current (clients : Clients) : Prop :=
  ∀ clientId session, clients.registry.lookup clientId = some session ↔
    session < clients.entered ∧ (clients.sessions session).clientId = clientId ∧
      (clients.sessions session).phase.entered = true ∧
      ∀ later, session < later → later < clients.entered →
        (clients.sessions later).clientId ≠ clientId

/-- A session that is not registered was cancelled or is over, or the session that
displaced it is about to cancel it. -/
def Displaced (clients : Clients) : Prop :=
  ∀ session clientId, session < clients.entered →
    (clients.sessions session).clientId = clientId →
    clients.registry.lookup clientId = some session ∨
      (clients.sessions session).cancelled = true ∨
      (clients.sessions session).phase.entered = false ∨
      ∃ other, other < clients.entered ∧ (clients.sessions other).phase = .displacing (some session)

/-- What holds in every run. -/
def Sound (clients : Clients) : Prop :=
  clients.Current ∧ clients.Displaced

variable {clients after : Clients} {session : Nat}

theorem Sound.connect (sound : clients.Sound) (clientId : String) :
    (clients.connect clientId).Sound := by
  obtain ⟨current, displaced⟩ := sound
  refine ⟨fun name session => ?_, fun session name => ?_⟩
  · have registered := current name session
    simp only [Clients.connect, Function.update_apply, Dict.lookup_insert]
    grind [ClientPhase.entered]
  · have cases := displaced session name
    by_cases taken : name = clientId ∧ clients.registry.lookup name = some session
    · obtain ⟨rfl, registered⟩ := taken
      refine fun _ _ => .inr (.inr (.inr ⟨clients.entered, Nat.lt_succ_self _, ?_⟩))
      simp only [Clients.connect, Function.update_self, registered]
    · simp only [Clients.connect, Function.update_apply, Dict.lookup_insert]
      grind

theorem Sound.cancel (sound : clients.Sound) (session : Nat) : (clients.cancel session).Sound := by
  refine ⟨fun name other => ?_, fun other name => ?_⟩
  · have registered := sound.1 name other
    simp only [Clients.cancel, Function.update_apply]
    grind
  · have cases := sound.2 other name
    simp only [Clients.cancel, Function.update_apply]
    grind

/-- A session may go on in its life: it leaves what it displaced only cancelled. -/
theorem Sound.turn (sound : clients.Sound) {next : ClientPhase}
    (entered : next.entered = (clients.sessions session).phase.entered)
    (cancelled : ∀ old, (clients.sessions session).phase = .displacing (some old) →
      (clients.sessions old).cancelled = true) : (clients.turn session next).Sound := by
  refine ⟨fun name other => ?_, fun other name => ?_⟩
  · have registered := sound.1 name other
    simp only [Clients.turn, Function.update_apply]
    grind
  · have cases := sound.2 other name
    simp only [Clients.turn, Function.update_apply]
    grind

/-- The entry that a session removes can only be its own. -/
theorem Sound.remove (sound : clients.Sound) (phase : (clients.sessions session).phase = .looping) :
    ((clients.removeIf (clients.sessions session).clientId session).turn session
      .removed).Sound := by
  have own := sound.1 (clients.sessions session).clientId session
  refine ⟨fun name other => ?_, fun other name => ?_⟩
  · have registered := sound.1 name other
    simp only [removeIf, Clients.turn, Function.update_apply]
    grind [ClientPhase.entered, Dict.lookup_erase]
  · have cases := sound.2 other name
    simp only [removeIf, Clients.turn, Function.update_apply]
    grind [ClientPhase.entered, Dict.lookup_erase]

theorem Sound.step {event : ClientEvent} (sound : clients.Sound)
    (stepped : clients.step event = some after) : after.Sound := by
  cases event with
  | connect clientId =>
    cases stepped
    exact sound.connect clientId
  | displace session =>
    simp only [Clients.step] at stepped
    split at stepped
    · next phase =>
      cases stepped
      exact sound.turn (by rw [phase]; rfl) (by rw [phase]; rintro _ ⟨⟩)
    · next old phase =>
      cases stepped
      have kept : ((clients.cancel old).sessions session).phase = .displacing (some old) := by
        simp only [Clients.cancel, Function.update_apply]
        grind
      refine (sound.cancel old).turn (by rw [kept]; rfl) fun other same => ?_
      cases kept.symm.trans same
      simp [Clients.cancel]
    · cases stepped
  | remove session =>
    simp only [Clients.step] at stepped
    split at stepped
    · next phase =>
      cases stepped
      exact sound.remove phase
    · cases stepped
  | finish session =>
    simp only [Clients.step] at stepped
    split at stepped
    · next phase =>
      cases stepped
      have kept : ((clients.cancel session).sessions session).phase = .removed := by
        simp [Clients.cancel, phase]
      exact (sound.cancel session).turn (by rw [kept]; rfl) (by rw [kept]; rintro _ ⟨⟩)
    · cases stepped
  | cancel session =>
    cases stepped
    exact sound.cancel session

theorem sound_start : ({} : Clients).Sound :=
  ⟨fun _ _ => ⟨nofun, fun found => absurd found.1 (Nat.not_lt_zero _)⟩,
    fun session _ earlier => absurd earlier (Nat.not_lt_zero session)⟩

end Clients

/-- In every run the registered session of a client identifier is the latest that entered
unless it removed itself, a session removes no entry but its own, and while no session has
still to cancel the one it displaced, every session that is not registered was cancelled or
is over. -/
theorem clients_taken_over (events : List ClientEvent) (clients : Clients)
    (ran : run Clients.step {} events = some clients) :
    clients.Current ∧
      (∀ session after, clients.step (.remove session) = some after →
        ∀ clientId other, clients.registry.lookup clientId = some other → other ≠ session →
          after.registry.lookup clientId = some other) ∧
      ((∀ session < clients.entered, ∀ previous,
          (clients.sessions session).phase ≠ .displacing previous) →
        ∀ session < clients.entered,
          clients.registry.lookup (clients.sessions session).clientId = some session ∨
            (clients.sessions session).cancelled = true ∨
            (clients.sessions session).phase.entered = false) := by
  have sound : clients.Sound := run_invariant Clients.Sound.step Clients.sound_start ran
  refine ⟨sound.1, ?_, ?_⟩
  · intro session after stepped clientId other registered different
    simp only [Clients.step] at stepped
    split at stepped <;> cases stepped
    simp only [Clients.removeIf, Clients.turn]
    grind [Dict.lookup_erase]
  · intro settled session earlier
    rcases sound.2 session _ earlier rfl with registered | cancelled | out | ⟨other, made, phase⟩
    · exact .inl registered
    · exact .inr (.inl cancelled)
    · exact .inr (.inr out)
    · exact absurd phase (settled other made _)

/-- Three sessions of one client, of which the first is slow to clean up. -/
theorem clients_taken_over_thrice :
    ∃ clients,
      run Clients.step {} [.connect "c", .displace 0, .connect "c", .connect "c", .displace 2,
        .displace 1, .remove 0, .finish 0] = some clients ∧
      clients.registry.lookup "c" = some 2 ∧ clients.Current := by
  refine (exists_some_of_check ?_).imp fun clients reached =>
    ⟨reached.1, reached.2, (clients_taken_over _ clients reached.1).1⟩
  decide +kernel

end Mqtt
end CanglingBroker
