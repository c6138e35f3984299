import CanglingBroker.Delivery.Wakeups

/-!
# The permits of the calls

Each message that a subscribe loop claims holds a permit, first in the loop, then in the
delivery task that awaits the decisions.  `Permitted` says this of one call, read off its
path.
-/

namespace CanglingBroker

open Foundation
open Program (Asks Ensures Guided Triple ensures_bind triple_ask triple_bind triple_done)

/-! ## What a call has of permits and messages -/

/-- A lease that a stream was sent, with the claim it was sent for. -/
abbrev Delivery.Lent : Type := String × (String × String)

def DeliveryTask.lent (task : DeliveryTask) : List Delivery.Lent :=
  task.waits.map fun wait => (wait.lease, task.message.pair)

namespace Delivery

/-- What one action does to the messages that a call is responsible for.  A call is rid of
them when it gives back their permit or hands them to a task. -/
def carry : DeliveryExchange → List Lent → List Lent
  | ⟨.send _ outgoing claim, true⟩, lent => (outgoing.lease, claim) :: lent
  | ⟨.cancelAck lease, _⟩, lent => lent.filter fun item => item.1 ≠ lease
  | ⟨.begin task, _⟩, _ => task.lent
  | ⟨.spawn _, _⟩, _ => []
  | ⟨.dropPermit _, _⟩, _ => []
  | _, lent => lent

def carried (path : List DeliveryExchange) : List Lent :=
  path.foldr carry []

/-- The semaphore of a call: a loop has made its own, a task has that of its loop. -/
def semaphoreOf : List DeliveryExchange → Option Nat
  | [] => none
  | ⟨.newSemaphore _, semaphore⟩ :: _ => some semaphore
  | ⟨.begin task, _⟩ :: _ => some task.owner
  | _ :: older => semaphoreOf older

/-- The permits of a semaphore that an action takes or gives away. -/
def permitsMoved (semaphore : Nat) : DeliveryExchange → Int
  | ⟨.acquire other _, true⟩ => if other = semaphore then 1 else 0
  | ⟨.tryAcquire other, true⟩ => if other = semaphore then 1 else 0
  | ⟨.begin task, _⟩ => if task.owner = semaphore then 1 else 0
  | ⟨.dropPermit other, _⟩ => if other = semaphore then -1 else 0
  | ⟨.spawn task, _⟩ => if task.owner = semaphore then -1 else 0
  | _ => 0

def permitsHeld (semaphore : Nat) (path : List DeliveryExchange) : Int :=
  (path.map (permitsMoved semaphore)).sum

/-- The claims that a call is responsible for, if it has this semaphore. -/
def claimsFor (semaphore : Nat) (path : List DeliveryExchange) : Finset (String × String) :=
  if semaphoreOf path = some semaphore then ((carried path).map Prod.snd).toFinset else ∅

/-- A call has a permit for each claim it is responsible for. -/
def Covered (path : List DeliveryExchange) : Prop :=
  ∀ semaphore, ((claimsFor semaphore path).card : Int) ≤ permitsHeld semaphore path

/-- A call is responsible for no more claims than it has permits.  It gives back a permit
only when it is responsible for nothing, or hands all of it to a task. -/
def Permitted (call : DeliveryCall) (path : List DeliveryExchange)
    (request : DeliveryAction) : Prop :=
  Covered path ∧
    match request with
    | .newSemaphore permits =>
      semaphoreOf path = none ∧
        ∃ args bound, call = .subscribe args bound ∧ permits = max args.config.consumerPrefetch 1
    | .begin _ => semaphoreOf path = none
    | .spawn task => semaphoreOf path = some task.owner ∧ carried path ⊆ task.lent
    | .dropPermit _ => carried path = []
    | .send .. => (∃ args bound, call = .subscribe args bound) → semaphoreOf path ≠ none
    | _ => True

/-- A call that has returned has no permits and no messages. -/
def Discharged (path : List DeliveryExchange) : Prop :=
  (∀ semaphore, permitsHeld semaphore path = 0) ∧ (semaphoreOf path ≠ none → carried path = [])

theorem permitsHeld_cons (semaphore : Nat) (exchange : DeliveryExchange)
    (path : List DeliveryExchange) :
    permitsHeld semaphore (exchange :: path) =
      permitsMoved semaphore exchange + permitsHeld semaphore path :=
  List.sum_cons

/-- The kinds of actions that concern permits and messages. -/
def permitKinds : List DeliveryKind :=
  [.newSemaphore, .acquire, .dropPermit, .spawn, .begin, .send, .cancelAck]

theorem idle_of_kind {request : DeliveryAction} (idle : permitKinds.contains request.kind = false)
    (answer : request.Reply) (path : List DeliveryExchange) :
    carried (⟨request, answer⟩ :: path) = carried path ∧
      semaphoreOf (⟨request, answer⟩ :: path) = semaphoreOf path ∧
      ∀ semaphore, permitsMoved semaphore ⟨request, answer⟩ = 0 := by
  cases request with
  | newSemaphore | acquire | tryAcquire | dropPermit | spawn | begin | send | cancelAck =>
    exact Bool.noConfusion (idle : true = false)
  | _ => exact ⟨rfl, rfl, fun _ => rfl⟩

/-- A call with a semaphore, some permits of it, and no more messages than these. -/
structure Holding (semaphore count : Nat) (lent : List Lent)
    (path : List DeliveryExchange) : Prop where
  owns : semaphoreOf path = some semaphore
  permits : ∀ other, permitsHeld other path = if other = semaphore then (count : Int) else 0
  lends : carried path ⊆ lent

/-- There is a permit for each claim among the messages. -/
def Backs (count : Nat) (lent : List Lent) : Prop :=
  (lent.map Prod.snd).toFinset.card ≤ count

theorem Backs.mono {count : Nat} {lent fewer : List Lent} (backs : Backs count lent)
    (subset : fewer ⊆ lent) :
    Backs count fewer := by
  refine (Finset.card_le_card fun claim listed => ?_).trans backs
  exact List.mem_toFinset.mpr (List.map_subset _ subset (List.mem_toFinset.mp listed))

theorem backs_nil (count : Nat) : Backs count [] := Nat.zero_le _

theorem backs_of_claim {lent : List Lent} {claim : String × String}
    (same : ∀ item ∈ lent, item.2 = claim) (count : Nat) : Backs (count + 1) lent := by
  have single : (lent.map Prod.snd).toFinset ⊆ {claim} := by
    intro other listed
    obtain ⟨item, member, rfl⟩ := List.mem_map.mp (List.mem_toFinset.mp listed)
    exact Finset.mem_singleton.mpr (same item member)
  exact (Finset.card_le_card single).trans (Nat.succ_le_succ (Nat.zero_le count))

namespace Holding

variable {semaphore count : Nat} {lent more : List Lent} {path : List DeliveryExchange}

theorem covered (holding : Holding semaphore count lent path) (backs : Backs count lent) :
    Covered path := by
  intro other
  rw [holding.permits other, claimsFor, holding.owns]
  by_cases same : other = semaphore
  · rw [if_pos same, if_pos (congrArg some same.symm)]
    exact_mod_cast backs.mono holding.lends
  · rw [if_neg same, if_neg fun equal => same (Option.some.inj equal).symm]
    exact Int.le_refl 0

theorem mono (holding : Holding semaphore count lent path) (subset : lent ⊆ more) :
    Holding semaphore count more path :=
  ⟨holding.owns, holding.permits, List.Subset.trans holding.lends subset⟩

theorem carried_eq_nil (holding : Holding semaphore count [] path) : carried path = [] :=
  List.subset_nil.mp holding.lends

theorem keep {exchange : DeliveryExchange} (holding : Holding semaphore count lent path)
    (moved : ∀ other, permitsMoved other exchange = 0) (lends : carried (exchange :: path) ⊆ more)
    (sameSemaphore : semaphoreOf (exchange :: path) = semaphoreOf path) :
    Holding semaphore count more (exchange :: path) := by
  refine ⟨sameSemaphore.trans holding.owns, fun other => ?_, lends⟩
  rw [permitsHeld_cons, moved, zero_add]
  exact holding.permits other

variable {request : DeliveryAction}

theorem idle (holding : Holding semaphore count lent path)
    (idle : permitKinds.contains request.kind = false) (answer : request.Reply) :
    Holding semaphore count lent (⟨request, answer⟩ :: path) := by
  obtain ⟨sameLent, sameSemaphore, moved⟩ := idle_of_kind idle answer path
  exact holding.keep moved (sameLent ▸ holding.lends) sameSemaphore

theorem move {exchange : DeliveryExchange} {next : Nat} {amount : Int}
    (holding : Holding semaphore count lent path)
    (moved : ∀ other, permitsMoved other exchange = if semaphore = other then amount else 0)
    (sum : (next : Int) = amount + count) (lends : carried (exchange :: path) ⊆ more)
    (sameSemaphore : semaphoreOf (exchange :: path) = semaphoreOf path) :
    Holding semaphore next more (exchange :: path) := by
  refine ⟨sameSemaphore.trans holding.owns, fun other => ?_, lends⟩
  rw [permitsHeld_cons, moved, holding.permits]
  by_cases same : other = semaphore
  · rw [if_pos same, if_pos same.symm, if_pos same, sum]
  · rw [if_neg same, if_neg (Ne.symm same), if_neg same, add_zero]

theorem drop (holding : Holding semaphore (count + 1) lent path) :
    Holding semaphore count [] (⟨.dropPermit semaphore, ()⟩ :: path) :=
  holding.move (fun _ => rfl) (by omega) (List.Subset.refl _) rfl

theorem permitted {call : DeliveryCall}
    (holding : Holding semaphore count lent path) (backs : Backs count lent)
    (idle : permitKinds.contains request.kind = false) : Permitted call path request := by
  refine ⟨holding.covered backs, ?_⟩
  cases request with
  | newSemaphore | begin | spawn | dropPermit | send => exact Bool.noConfusion (idle : true = false)
  | _ => trivial

end Holding

/-! ## The permits of a subscribe loop -/

section Programs

variable {Result : Type} {call : DeliveryCall} {semaphore count : Nat} {lent : List Lent}

theorem holding_of_speaks {kinds : List DeliveryKind} {program : Delivery Result}
    (speaks : Speaks kinds program) (idle : ∀ kind ∈ kinds, permitKinds.contains kind = false)
    (backs : Backs count lent) :
    Triple (Permitted call) (Holding semaphore count lent) program fun _ =>
      Holding semaphore count lent :=
  Asks.guided (Asks.mono speaks fun request listed => idle request.kind listed)
    (fun _ _ answer quiet holding => holding.idle quiet answer)
    fun _ _ quiet holding => holding.permitted backs quiet

theorem holding_act {action : DeliveryAction} (idle : permitKinds.contains action.kind = false)
    (backs : Backs count lent) :
    Triple (Permitted call) (Holding semaphore count lent) (act action) fun _ =>
      Holding semaphore count lent :=
  triple_ask (fun _ holding => holding.permitted backs idle)
    fun _ answer holding => holding.idle idle answer

theorem holding_drop :
    Triple (Permitted call) (Holding semaphore (count + 1) []) (act (.dropPermit semaphore))
      fun _ => Holding semaphore count [] :=
  triple_ask (fun _ holding => ⟨holding.covered (backs_nil _), holding.carried_eq_nil⟩)
    fun _ _ holding => holding.drop

theorem holding_dropPermits : ∀ given,
    Triple (Permitted call) (Holding semaphore (count + given) [])
      (dropPermits semaphore given) fun _ => Holding semaphore count []
  | 0 => triple_done () fun _ holding => holding
  | given + 1 => triple_bind holding_drop fun _ => holding_dropPermits given

theorem holding_reserve : ∀ more count,
    Triple (Permitted call) (Holding semaphore count []) (reserve semaphore more) fun taken =>
      Holding semaphore (count + taken) []
  | 0, _ => triple_done 0 fun _ holding => holding
  | more + 1, count => by
    have tried : Triple (Permitted call) (Holding semaphore count []) (act (.tryAcquire semaphore))
        fun (taken : Bool) => Holding semaphore (count + taken.toNat) [] := by
      refine triple_ask (fun path holding => ⟨holding.covered (backs_nil _), trivial⟩) ?_
      intro path taken holding
      cases taken with
      | true => exact holding.move (fun _ => rfl) (by simp [Int.add_comm]) holding.lends rfl
      | false => exact holding.keep (fun _ => rfl) holding.lends rfl
    refine triple_bind tried fun (taken : Bool) => ?_
    cases taken with
    | true =>
      refine triple_bind (holding_reserve more (count + 1)) fun later => ?_
      refine triple_done _ fun path holding => ?_
      rwa [Nat.add_right_comm, Nat.add_assoc] at holding
    | false => exact triple_done 0 fun _ holding => holding

/-- What a claim leaves the loop with: a permit for each message. -/
def Refilled (semaphore : Nat) : Refill → List DeliveryExchange → Prop
  | .filled ready => Holding semaphore ready.length []
  | _ => Holding semaphore 0 []

theorem holding_refill (args : SubscribeLoop) (watcher last : Nat) :
    Triple (Permitted call) (Holding semaphore 0 []) (refill args watcher semaphore last)
      (Refilled semaphore) := by
  have acquired :
      Triple (Permitted call) (Holding semaphore 0 []) (act (.acquire semaphore args.token))
        fun (taken : Bool) => Holding semaphore taken.toNat [] := by
    refine triple_ask (fun path holding => ⟨holding.covered (backs_nil _), trivial⟩) ?_
    intro path taken holding
    cases taken with
    | true => exact holding.move (fun _ => rfl) rfl holding.lends rfl
    | false => exact holding.keep (fun _ => rfl) holding.lends rfl
  refine triple_bind acquired fun (taken : Bool) => ?_
  cases taken with
  | false => exact triple_done _ fun _ holding => holding
  | true =>
    refine triple_bind (holding_reserve _ _) fun more => ?_
    rw [show Bool.toNat true + more = more + 1 from Nat.add_comm 1 more]
    refine triple_bind (holding_act rfl (backs_nil _)) fun claimedAt => ?_
    refine triple_bind
      (holding_of_speaks (speaks_database rfl rfl : Speaks [.claim, .await] _) (by decide)
        (backs_nil _)) fun outcome => ?_
    dsimp only
    rw [List.length_replicate]
    cases outcome with
    | error =>
      refine triple_bind (holding_act rfl (backs_nil _)) fun slept => ?_
      have given := @holding_dropPermits call semaphore 0 (more + 1)
      rw [Nat.zero_add] at given
      refine triple_bind given fun _ => triple_done _ fun _ holding => ?_
      cases slept with
      | true => exact holding
      | false => exact holding
    | ok value =>
      dsimp only
      generalize filled :
        (value.messages.zip (List.replicate (more + 1) ())).map
          (fun entry => (entry.1, claimedAt)) = ready
      have fits : ready.length ≤ more + 1 := by
        rw [← filled, List.length_map, List.length_zip, List.length_replicate]
        exact Nat.min_le_right _ _
      rw [← Nat.add_sub_of_le fits, Nat.add_sub_cancel_left]
      refine triple_bind (holding_dropPermits _) fun _ => ?_
      cases ready with
      | cons => exact triple_done _ fun _ holding => holding
      | nil =>
        refine triple_bind
          (holding_of_speaks (speaks_heartbeat args last) (by decide) (backs_nil _))
          fun touched => ?_
        refine triple_bind (holding_act rfl (backs_nil _)) fun (wake : Wake) => ?_
        cases wake with
        | _ => exact triple_done _ fun _ holding => holding

theorem holding_cancel (lease : String) (backs : Backs count lent) :
    Triple (Permitted call) (Holding semaphore count lent) (act (.cancelAck lease)) fun _ =>
      Holding semaphore count (lent.filter fun item => item.1 ≠ lease) :=
  triple_ask (fun _ holding => ⟨holding.covered backs, trivial⟩) fun _ _ holding =>
    holding.keep (fun _ => rfl) (List.filter_subset _ holding.lends) rfl

theorem holding_cancelAll : ∀ (waits : List AckWait) {lent : List Lent}, Backs count lent →
    (∀ item ∈ lent, ∃ wait ∈ waits, item.1 = wait.lease) →
      Triple (Permitted call) (Holding semaphore count lent)
        (forAll (fun wait => act (.cancelAck wait.lease)) waits) fun _ =>
          Holding semaphore count []
  | [], _, _, listed =>
    triple_done () fun _ holding =>
      holding.mono fun item member => by
        obtain ⟨wait, none, _⟩ := listed item member
        cases none
  | wait :: rest, lent, backs, listed => by
    have fewer : (lent.filter fun item => item.1 ≠ wait.lease) ⊆ lent := List.filter_sublist.subset
    refine triple_bind (holding_cancel wait.lease backs) fun _ => ?_
    refine holding_cancelAll rest (backs.mono fewer) fun item member => ?_
    obtain ⟨kept, different⟩ := List.mem_filter.mp member
    obtain ⟨other, among, same⟩ := listed item kept
    rcases List.mem_cons.mp among with rfl | later
    · exact absurd same (of_decide_eq_true different)
    · exact ⟨other, later, same⟩

section Loop

variable {args : SubscribeLoop} {bound : Nat}

/-- Each stream that takes the message is one more to answer for, under the same claim. -/
theorem holding_sendEach (message : ClaimedMessage) :
    ∀ (targets : List (String × StreamSender)) (lent : List Lent),
      (∀ item ∈ lent, item.2 = message.pair) →
        Triple (Permitted (.subscribe args bound)) (Holding semaphore (count + 1) lent)
          (sendEach message targets) fun waits =>
            Holding semaphore (count + 1)
              (waits.map (fun wait => (wait.lease, message.pair)) ++ lent)
  | [], _, _ => triple_done [] fun _ holding => holding
  | target :: rest, lent, same => by
    have backs : Backs (count + 1) lent := backs_of_claim same count
    refine triple_bind (holding_act rfl backs) fun (lease : String) => ?_
    refine triple_bind (holding_act rfl backs) fun rx => ?_
    have sent : Triple (Permitted (.subscribe args bound)) (Holding semaphore (count + 1) lent)
        (act (.send target.2 (message.outgoing lease) message.pair))
        fun (taken : Bool) =>
          Holding semaphore (count + 1)
            (if taken then (lease, message.pair) :: lent else lent) := by
      refine triple_ask (fun path holding => ⟨holding.covered backs, fun _ => ?_⟩) ?_
      · rw [holding.owns]
        exact Option.some_ne_none _
      · intro path taken holding
        cases taken with
        | true => exact holding.keep (fun _ => rfl) (List.cons_subset_cons _ holding.lends) rfl
        | false => exact holding.keep (fun _ => rfl) holding.lends rfl
    refine triple_bind sent fun (taken : Bool) => ?_
    cases taken with
    | true =>
      have onePair : ∀ item ∈ (lease, message.pair) :: lent, item.2 = message.pair := by
        intro item member
        rcases List.mem_cons.mp member with rfl | older
        · rfl
        · exact same item older
      refine triple_bind (holding_sendEach message rest _ onePair) fun later => ?_
      refine triple_done _ fun path holding => holding.mono ?_
      intro item member
      simp only [List.mem_append, List.mem_cons, List.map_cons, if_true] at member ⊢
      tauto
    | false =>
      refine triple_bind (holding_cancel lease backs) fun _ => ?_
      refine triple_bind (holding_act rfl (backs.mono List.filter_sublist.subset)) fun _ => ?_
      refine (holding_sendEach message rest lent same).consequence ?_ fun _ _ held => held
      exact fun path holding => holding.mono List.filter_sublist.subset

theorem holding_settle (ready : Ready) (ephemeral : Bool) (waits : List AckWait) :
    Triple (Permitted (.subscribe args bound))
      (Holding semaphore (count + 1) (waits.map fun wait => (wait.lease, ready.1.pair)))
      (settle args semaphore ready ephemeral waits) fun _ => Holding semaphore count [] := by
  have onePair :
      ∀ item ∈ waits.map fun wait => (wait.lease, ready.1.pair), item.2 = ready.1.pair := by
    intro item member
    obtain ⟨wait, _, rfl⟩ := List.mem_map.mp member
    rfl
  have backs := backs_of_claim onePair count
  unfold settle
  split
  · have listed :
        ∀ item ∈ waits.map fun wait => (wait.lease, ready.1.pair),
          ∃ wait ∈ waits, item.1 = wait.lease := by
      intro item member
      obtain ⟨wait, among, rfl⟩ := List.mem_map.mp member
      exact ⟨wait, among, rfl⟩
    refine triple_bind (holding_cancelAll waits backs listed) fun _ => ?_
    refine triple_bind
      (holding_of_speaks (speaks_database rfl rfl : Speaks [.acknowledge, .await] _)
        (by decide) (backs_nil _)) fun _ => ?_
    exact triple_bind holding_drop fun _ => triple_done _ fun _ holding => holding
  · split
    · next empty =>
      rw [List.isEmpty_iff] at empty
      subst empty
      refine triple_bind
        (holding_of_speaks (speaks_database ?_ rfl : Speaks [.giveBack, .await] _)
          (by decide) (backs_nil _)) fun _ => ?_
      · split
        · rfl
        · rfl
      · refine triple_bind (holding_act rfl (backs_nil _)) fun _ => ?_
        exact triple_bind holding_drop fun _ => triple_done _ fun _ holding => holding
    · refine triple_bind (triple_ask ?_ ?_) fun _ => triple_done _ fun _ holding => holding
      · exact fun path holding => ⟨holding.covered backs, holding.owns, holding.lends⟩
      · exact fun path _ holding => holding.move (fun _ => rfl) (by omega) (List.Subset.refl _) rfl

theorem holding_dispatch (ready : Ready) :
    Triple (Permitted (.subscribe args bound)) (Holding semaphore (count + 1) [])
      (dispatch args semaphore ready) fun _ => Holding semaphore count [] := by
  refine triple_bind (holding_act rfl (backs_nil _)) fun now => ?_
  split
  · refine triple_bind
      (holding_of_speaks (speaks_release ready.1) (by decide) (backs_nil _)) fun _ => ?_
    exact triple_bind holding_drop fun _ => triple_done _ fun _ holding => holding
  · refine triple_bind
      (holding_of_speaks (speaks_settings ready.1.topic) (by decide) (backs_nil _))
      fun settings => ?_
    refine triple_bind
      (holding_of_speaks (speaks_targets args ready.1.topic _) (by decide) (backs_nil _))
      fun streams => ?_
    refine triple_bind
      (holding_sendEach ready.1 streams [] fun _ none => absurd none List.not_mem_nil)
      fun waits => ?_
    rw [List.append_nil]
    exact holding_settle ready _ waits

theorem holding_rounds (watcher : Nat) : ∀ more ready last,
    Triple (Permitted (.subscribe args bound)) (Holding semaphore ready.length [])
      (rounds args watcher semaphore more ready last) fun left =>
        Holding semaphore left.length []
  | 0, _, _ => triple_bind (holding_act rfl (backs_nil _)) fun blocked => nomatch blocked
  | more + 1, ready, last => by
    have one : ∀ (entry : Ready) (rest : List Ready),
        Triple (Permitted (.subscribe args bound))
          (Holding semaphore (entry :: rest).length [])
          (do
            if ← dispatch args semaphore entry then
              rounds args watcher semaphore more rest last
            else
              pure rest)
          fun left => Holding semaphore left.length [] := by
      intro entry rest
      refine triple_bind (holding_dispatch entry) fun goes => ?_
      split
      · exact holding_rounds watcher more rest last
      · exact triple_done _ fun _ holding => holding
    refine triple_bind (holding_act rfl (backs_nil _)) fun cancelled => ?_
    split
    · exact triple_done _ fun _ holding => holding
    · refine triple_bind (holding_act rfl (backs_nil _)) fun closed => ?_
      split
      · exact triple_done _ fun _ holding => holding
      · cases ready with
        | cons entry rest => exact one entry rest
        | nil =>
          refine triple_bind (holding_refill args watcher last) fun refilled => ?_
          match refilled with
          | .stop => exact triple_done _ fun _ holding => holding
          | .again touched => exact holding_rounds watcher more [] touched
          | .filled [] => exact triple_done _ fun _ holding => holding
          | .filled (entry :: rest) => exact one entry rest

end Loop

/-! ## The permits of every call -/

/-- A call that has no semaphore yet. -/
structure Free (path : List DeliveryExchange) : Prop where
  owns : semaphoreOf path = none
  permits : ∀ semaphore, permitsHeld semaphore path = 0

theorem free_nil : Free [] := ⟨rfl, fun _ => rfl⟩

def movingKinds : List DeliveryKind :=
  [.newSemaphore, .acquire, .dropPermit, .spawn, .begin]

namespace Free

variable {path : List DeliveryExchange}

theorem covered (free : Free path) : Covered path := by
  intro semaphore
  rw [free.permits, claimsFor, free.owns, if_neg (Option.some_ne_none _).symm]
  exact Int.le_refl 0

theorem cons {request : DeliveryAction} (free : Free path)
    (still : movingKinds.contains request.kind = false) (answer : request.Reply) :
    Free (⟨request, answer⟩ :: path) := by
  have moved : ∀ semaphore, permitsMoved semaphore ⟨request, answer⟩ = 0 := by
    intro semaphore
    cases request with
    | newSemaphore | acquire | tryAcquire | dropPermit | spawn | begin =>
      exact Bool.noConfusion (still : true = false)
    | _ => rfl
  have same : semaphoreOf (⟨request, answer⟩ :: path) = semaphoreOf path := by
    cases request with
    | newSemaphore | begin => exact Bool.noConfusion (still : true = false)
    | _ => rfl
  exact
    ⟨same.trans free.owns, fun semaphore => by
      rw [permitsHeld_cons, moved, free.permits, add_zero]⟩

theorem permitted {request : DeliveryAction} (free : Free path)
    (still : movingKinds.contains request.kind = false)
    (silent : (∃ args bound, call = .subscribe args bound) → request.kind ≠ .send) :
    Permitted call path request := by
  refine ⟨free.covered, ?_⟩
  cases request with
  | newSemaphore | begin | spawn | dropPermit => exact Bool.noConfusion (still : true = false)
  | send => exact fun isLoop => absurd rfl (silent isLoop)
  | _ => trivial

theorem holding (free : Free path) (nothing : carried path = []) (permits semaphore : Nat) :
    Holding semaphore 0 [] (⟨.newSemaphore permits, semaphore⟩ :: path) := by
  refine ⟨rfl, fun other => ?_, ?_⟩
  · rw [permitsHeld_cons, free.permits]
    exact (ite_self 0).symm
  · exact List.subset_nil.mpr nothing

theorem begun (free : Free path) (task : DeliveryTask) :
    Holding task.owner 1 task.lent (⟨.begin task, ()⟩ :: path) := by
  refine ⟨rfl, fun other => ?_, fun _ member => member⟩
  rw [permitsHeld_cons, free.permits, add_zero]
  by_cases same : other = task.owner
  · rw [if_pos same]
    exact if_pos same.symm
  · rw [if_neg same]
    exact if_neg (Ne.symm same)

end Free

theorem Holding.discharged {path : List DeliveryExchange} (holding : Holding semaphore 0 [] path) :
    Discharged path := by
  refine ⟨fun other => ?_, fun _ => holding.carried_eq_nil⟩
  rw [holding.permits]
  exact ite_self 0

def Unmade (path : List DeliveryExchange) : Prop :=
  Free path ∧ carried path = []

theorem unmade_act {action : DeliveryAction} (idle : permitKinds.contains action.kind = false) :
    Triple (Permitted call) Unmade (act action) fun _ => Unmade := by
  have narrower : ∀ kind, permitKinds.contains kind = false →
      movingKinds.contains kind = false ∧ kind ≠ .send := by
    intro kind
    cases kind <;> decide
  obtain ⟨still, silent⟩ := narrower _ idle
  refine triple_ask (fun path unmade => unmade.1.permitted still fun _ => silent) ?_
  exact fun path answer unmade =>
    ⟨unmade.1.cons still answer, (idle_of_kind idle answer path).1.trans unmade.2⟩

theorem holding_runSubscribeLoop (args : SubscribeLoop) (bound : Nat) :
    Triple (Permitted (.subscribe args bound)) Unmade (runSubscribeLoop args bound)
      fun _ => Discharged := by
  refine triple_bind (unmade_act rfl) fun _ => ?_
  refine triple_bind (unmade_act rfl) fun started => ?_
  refine triple_bind (unmade_act rfl) fun watcher => ?_
  have made : Triple (Permitted (.subscribe args bound)) Unmade
      (act (.newSemaphore (max args.config.consumerPrefetch 1)))
      fun (semaphore : Nat) => Holding semaphore 0 [] :=
    triple_ask
      (fun path unmade => ⟨unmade.1.covered, unmade.1.owns, args, bound, rfl, rfl⟩)
      fun path semaphore unmade => unmade.1.holding unmade.2 _ semaphore
  refine triple_bind made fun (semaphore : Nat) => ?_
  refine triple_bind (holding_rounds watcher bound [] started) fun left => ?_
  have released : ∀ left : List Ready,
      Triple (Permitted (.subscribe args bound)) (Holding semaphore left.length [])
        (forAll
          (fun ready => do
            release ready.1
            act (.dropPermit semaphore))
          left)
        fun _ => Holding semaphore 0 [] := by
    intro left
    induction left with
    | nil => exact triple_done () fun _ holding => holding
    | cons ready _ ih =>
      refine triple_bind (triple_bind ?_ fun _ => holding_drop) fun _ => ih
      exact holding_of_speaks (speaks_release ready.1) (by decide) (backs_nil _)
  refine triple_bind (released left) fun _ => ?_
  refine triple_bind (holding_act rfl (backs_nil _)) fun _ => ?_
  refine triple_bind (holding_act rfl (backs_nil _)) fun _ => ?_
  refine (holding_of_speaks (speaks_lastSubscriberLeft args.topic) (by decide)
    (backs_nil 0)).consequence (fun _ holding => holding) ?_
  exact fun _ path holding => holding.discharged

theorem holding_deliver (task : DeliveryTask) :
    Triple (Permitted call) Unmade (deliver task) fun _ => Discharged := by
  have onePair : ∀ item ∈ task.lent, item.2 = task.message.pair := by
    intro item member
    obtain ⟨wait, _, rfl⟩ := List.mem_map.mp member
    rfl
  have listed : ∀ item ∈ task.lent, ∃ wait ∈ task.waits, item.1 = wait.lease := by
    intro item member
    obtain ⟨wait, among, rfl⟩ := List.mem_map.mp member
    exact ⟨wait, among, rfl⟩
  have backs : Backs 1 task.lent := backs_of_claim onePair 0
  have begun : Triple (Permitted call) Unmade (act (.begin task)) fun _ =>
      Holding task.owner 1 task.lent :=
    triple_ask (fun path unmade => ⟨unmade.1.covered, unmade.1.owns⟩)
      fun path _ unmade => unmade.1.begun task
  refine triple_bind begun fun _ => ?_
  refine triple_bind (holding_of_speaks (speaks_collect task task.waits _) (by decide) backs)
    fun verdict => ?_
  refine triple_bind (holding_cancelAll task.waits backs listed) fun _ => ?_
  refine triple_bind
    (holding_of_speaks (speaks_conclude task verdict) (by decide) (backs_nil _)) fun _ => ?_
  refine triple_bind holding_drop fun _ => ?_
  refine (holding_act rfl (backs_nil 0)).consequence (fun _ holding => holding) ?_
  exact fun _ path holding => holding.discharged

end Programs

theorem ensures_permitted (call : DeliveryCall) :
    Ensures (Permitted call) (fun path _ => Discharged path) [] call.body := by
  have unmade : Unmade [] := ⟨free_nil, rfl⟩
  by_cases isLoop : ∃ args bound, call = .subscribe args bound
  · obtain ⟨args, bound, rfl⟩ := isLoop
    refine ensures_bind.mpr ((holding_runSubscribeLoop args bound [] unmade).weaken ?_)
    exact fun reached _ discharged => discharged
  · by_cases isTask : ∃ task, call = .deliver task
    · obtain ⟨task, rfl⟩ := isTask
      refine ensures_bind.mpr ((holding_deliver task [] unmade).weaken ?_)
      exact fun reached _ discharged => discharged
    · have speaks :=
        call.speaks_body (fun args bound same => isLoop ⟨args, bound, same⟩)
          fun task same => isTask ⟨task, same⟩
      have still : ∀ kind ∈ DeliveryCall.otherKinds, movingKinds.contains kind = false := by
        decide
      have guided : Guided Free (Permitted call) call.body :=
        Asks.guided speaks (fun _ _ answer listed free => free.cons (still _ listed) answer)
          fun _ _ listed free =>
            free.permitted (still _ listed) fun loop => absurd loop isLoop
      refine (guided [] free_nil).weaken fun path _ free => ⟨free.permits, fun owns => ?_⟩
      exact absurd free.owns owns

end Delivery

end CanglingBroker
