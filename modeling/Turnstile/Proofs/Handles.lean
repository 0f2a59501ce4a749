import Turnstile.Blocking
import Turnstile.Cooperative
import Turnstile.Proofs.Plan.Custody

/-!
# Open queues

An operation of a semaphore opens queues and closes them again.  Whatever its requests are answered,
and wherever it is interrupted, it closes each queue that it opened once, after its last request to
that queue and before it ends.  A clean-up with two legs opens two queues, and each leg closes its
own.

Nothing is assumed of the store: it may fail in any way, or hand out the same queue twice.

## Main definitions

* `handles` - which answers open a queue, and which requests need one or close it.
* `Opens` - the operations that open queues.

## Main statements

* `Opens.closes_each_once` - every opened queue is closed exactly once.
-/

namespace Turnstile

open Service

variable {Q τ α : Type} [Seconds τ]

/-- A queue is in the hands of an operation from the answer that opens it to the request that closes
it. -/
def handles (Q τ : Type) [Seconds τ] : Plan.Custody (Service Q τ) Q where
  opened
    | .inl (.connect ..), .ok queue => {queue}
    | _, _ => 0
  used
    | .inl (.push queue _) => {queue}
    | .inl (.position queue _) => {queue}
    | .inl (.pop queue _) => {queue}
    | .inl (.expire queue _) => {queue}
    | .inl (.length queue) => {queue}
    | .inl (.close queue) => {queue}
    | _ => 0
  closed
    | .inl (.close queue) => {queue}
    | _ => 0
  closed_le r := by
    rcases r with r | r
    · cases r with
      | close queue => exact le_rfl
      | _ => exact Multiset.zero_le _
    · exact Multiset.zero_le _

abbrev Leaves (operation : Operation Q τ α) (held kept : Multiset Q) : Prop :=
  Action.Leaves (handles Q τ) operation held kept

variable {held : Multiset Q} {queue : Q}

/-!
## Requests
-/

theorem carries_request {r : (Service Q τ).Request} (hused : (handles Q τ).used r ≤ held)
    (hclosed : (handles Q τ).closed r = 0) (hopened : ∀ answer, (handles Q τ).opened r answer = 0) :
    (Plan.request r : Plan (Service Q τ) τ _).Carries (handles Q τ) held
      fun _ held' => held' = held := by
  constructor
  · exact hused
  · exists held
    constructor
    · rw [hclosed, zero_add]
    · intro answer
      show _ + held = held
      rw [hopened, zero_add]

theorem carries_ambient (r : AmbientRequest τ) :
    (ambient r : Plan (Service Q τ) τ _).Carries (handles Q τ) held fun _ held' => held' = held :=
  carries_request (Multiset.zero_le _) rfl fun _ => rfl

theorem carries_close :
    (close queue : Plan (Service Q τ) τ Unit).Carries (handles Q τ) {queue}
      fun _ held' => held' = 0 :=
  ⟨le_rfl, 0, (add_zero _).symm, fun _ => rfl⟩

theorem leaves_connect {endpoint key : String} {next : Q → Operation Q τ α}
    (h : ∀ queue, Leaves (next queue) {queue} 0) : Leaves (connect endpoint key >>= next) 0 0 := by
  constructor
  · exact le_rfl
  · exists 0
    constructor
    · rfl
    · intro (answer : Except (Failure τ) Q)
      cases answer with
      | ok queue => exact h queue
      | error e => rfl

theorem leaves_push (id : String) :
    Leaves (push queue id : Operation Q τ Nat) {queue} {queue} :=
  carries_request le_rfl rfl fun _ => rfl

theorem leaves_position (id : String) :
    Leaves (position queue id : Operation Q τ (Option Nat)) {queue} {queue} :=
  carries_request le_rfl rfl fun _ => rfl

theorem leaves_pop (count : Int) :
    Leaves (pop queue count : Operation Q τ (List String)) {queue} {queue} :=
  carries_request le_rfl rfl fun _ => rfl

theorem leaves_expire (seconds : Int) :
    Leaves (expire queue seconds : Operation Q τ Bool) {queue} {queue} :=
  carries_request le_rfl rfl fun _ => rfl

theorem leaves_length : Leaves (length queue : Operation Q τ Nat) {queue} {queue} :=
  carries_request le_rfl rfl fun _ => rfl

theorem leaves_estimate (position capacity : Int) (base : τ) :
    Leaves (estimate position capacity base : Operation Q τ τ) held held :=
  carries_ambient _

theorem leaves_sleep (duration : τ) : Leaves (sleep duration : Operation Q τ Unit) held held :=
  carries_ambient _

theorem leaves_announce (position : Int) :
    Leaves (announce position : Operation Q τ Unit) held held :=
  carries_ambient _

theorem leaves_now : Leaves (now : Operation Q τ τ) held held :=
  Action.leaves_lift (carries_ambient _)

theorem leaves_record (mode : Mode) (entry : Entry τ) :
    Leaves (record mode entry : Operation Q τ Unit) held held :=
  Action.leaves_lift (carries_ambient _)

theorem leaves_hold (ticket : Ticket τ) : Leaves (hold ticket : Operation Q τ Unit) held held :=
  Action.leaves_lift (carries_ambient _)

theorem leaves_elapsedSince (started : τ) :
    Leaves (elapsedSince started : Operation Q τ Int) held held := by
  apply Action.leaves_bind leaves_now
  intro current
  split
  · exact Action.leaves_pure _
  · exact Action.leaves_throw _

theorem leaves_newTicket (semaphore : Semaphore τ) :
    Leaves (semaphore.newTicket : Operation Q τ (Ticket τ)) held held := by
  apply Action.leaves_bind (Action.leaves_lift (carries_ambient _))
  intro id
  split
  · exact Action.leaves_pure _
  · exact Action.leaves_throw _

theorem leaves_giveBack {cleanUp : Ticket τ → Operation Q τ Unit} (semaphore : Semaphore τ)
    (h : ∀ ticket, Leaves (cleanUp ticket) 0 0) : Leaves (semaphore.giveBack cleanUp) 0 0 := by
  apply Action.leaves_bind (Action.leaves_lift (carries_ambient _))
  intro ticket?
  split
  · exact Action.leaves_throw _
  · exact h _

theorem leaves_queueLength (semaphore : Semaphore τ) :
    Leaves (semaphore.queueLength : Operation Q τ Nat) 0 0 := by
  apply leaves_connect
  intro queue
  exact Action.leaves_ensuring leaves_length carries_close

/-!
## Blocking operations
-/

namespace Blocking

theorem allowedSleep_leaves (ticket : Ticket τ) (timeout : Option τ) (started duration : τ) :
    Leaves (allowedSleep ticket timeout started duration : Operation Q τ τ) held held := by
  unfold allowedSleep
  cases timeout with
  | none => exact Action.leaves_pure _
  | some limit =>
      apply Action.leaves_bind (leaves_elapsedSince _)
      intro elapsed
      dsimp only
      split
      · apply Action.leaves_bind (leaves_elapsedSince _)
        intro elapsed'
        exact Action.leaves_throw _
      · exact Action.leaves_pure _

theorem look_leaves (ticket : Ticket τ) (timeout : Option τ) (started : τ) (place : Int) :
    Leaves (look queue ticket timeout started place) {queue} {queue} := by
  unfold look
  split
  · apply Action.leaves_bind (leaves_elapsedSince _)
    intro elapsed
    apply Action.leaves_bind (leaves_record _ _)
    intro _
    exact Action.leaves_pure _
  · exact Action.leaves_throw _
  · apply Action.leaves_bind (leaves_estimate _ _ _)
    intro duration
    apply Action.leaves_bind (allowedSleep_leaves _ _ _ _)
    intro allowed
    apply Action.leaves_bind (leaves_sleep _)
    intro _
    apply Action.leaves_bind (leaves_position _)
    intro rank
    apply Action.leaves_bind (leaves_record _ _)
    intro _
    exact Action.leaves_pure _

theorem wait_leaves (ticket : Ticket τ) (timeout : Option τ) :
    Leaves (wait ticket timeout : Operation Q τ Unit) 0 0 := by
  apply leaves_connect
  intro queue
  apply Action.leaves_ensuring _ carries_close
  apply Action.leaves_bind leaves_now
  intro started
  apply Action.leaves_bind (leaves_push _)
  intro length
  apply Action.leaves_bind (leaves_record _ _)
  intro _
  exact Action.leaves_repeatFrom fun place => look_leaves _ _ _ place

theorem keepError_leaves {step : Operation Q τ Unit} (h : Leaves step held held) :
    Leaves (keepError step) held held := by
  apply (Plan.carries_bind _ _).mpr
  apply h.mono
  intro ended held' hheld'
  cases ended with
  | ok _ => exact hheld'
  | error e => exact hheld'

theorem cleanUp_leaves (ticket : Ticket τ) : Leaves (cleanUp ticket : Operation Q τ Unit) 0 0 := by
  apply leaves_connect
  intro queue
  apply Action.leaves_bind
  · apply Action.leaves_ensuring _ carries_close
    apply Action.leaves_bind
    · apply keepError_leaves
      apply Action.leaves_bind (leaves_pop _)
      intro popped
      exact leaves_record _ _
    · intro ofPop
      apply Action.leaves_bind
      · apply keepError_leaves
        apply Action.leaves_bind (leaves_expire _)
        intro _
        exact Action.leaves_pure _
      · intro ofExpire
        exact Action.leaves_pure _
  · intro kept
    cases kept with
    | none => exact Action.leaves_pure _
    | some e => exact Action.leaves_throw _

theorem acquire_leaves (semaphore : Semaphore τ) (timeout : Option τ) :
    Leaves (acquire semaphore timeout : Operation Q τ Unit) 0 0 := by
  apply Action.leaves_bind (leaves_newTicket _)
  intro ticket
  apply Action.leaves_bind
  · apply Action.leaves_tryCatch (wait_leaves _ _)
    intro e
    dsimp only
    split
    · apply Action.leaves_bind (cleanUp_leaves _)
      intro _
      exact Action.leaves_throw _
    · exact Action.leaves_throw _
  · intro _
    exact leaves_hold _

theorem release_leaves (semaphore : Semaphore τ) :
    Leaves (release semaphore : Operation Q τ Unit) 0 0 :=
  leaves_giveBack semaphore cleanUp_leaves

end Blocking

/-!
## Cooperative operations
-/

namespace Cooperative

theorem look_leaves (ticket : Ticket τ) (started : τ) (place : Int) :
    Leaves (look queue ticket started place) {queue} {queue} := by
  unfold look
  split
  · apply Action.leaves_bind (leaves_elapsedSince _)
    intro elapsed
    apply Action.leaves_bind (leaves_record _ _)
    intro _
    exact Action.leaves_pure _
  · apply Action.leaves_bind (leaves_record _ _)
    intro _
    exact Action.leaves_throw _
  · apply Action.leaves_bind (leaves_estimate _ _ _)
    intro duration
    apply Action.leaves_bind (leaves_record _ _)
    intro _
    apply Action.leaves_bind (leaves_sleep _)
    intro _
    apply Action.leaves_bind (leaves_position _)
    intro rank
    have hmoved : Leaves (do
        record .cooperative (.moved (positionOfRank rank))
        pure (.inl (positionOfRank rank)) : Operation Q τ (Int ⊕ Unit)) {queue} {queue} := by
      apply Action.leaves_bind (leaves_record _ _)
      intro _
      exact Action.leaves_pure _
    split
    · apply Action.leaves_bind (leaves_record _ _)
      intro _
      exact hmoved
    · exact hmoved

/-- What a task does between its entry and the close of its queue. -/
theorem entered_leaves (ticket : Ticket τ) (watched : Bool) (started : τ) (place : Int) :
    Leaves (do
      if watched then
        announce place
      record .cooperative (.entered ticket.queueKey place)
      Action.repeatFrom place (look queue ticket started) : Operation Q τ Unit)
      {queue} {queue} := by
  have hrounds : Leaves (do
      record .cooperative (.entered ticket.queueKey place)
      Action.repeatFrom place (look queue ticket started) : Operation Q τ Unit)
      {queue} {queue} := by
    apply Action.leaves_bind (leaves_record _ _)
    intro _
    exact Action.leaves_repeatFrom fun place' => look_leaves _ _ place'
  cases watched with
  | false => exact hrounds
  | true =>
      apply Action.leaves_bind (leaves_announce _)
      intro _
      exact hrounds

theorem follow_carries (ticket : Ticket τ) (watched : Bool) :
    (follow ticket watched : Plan (Service Q τ) τ (Waited τ)).Carries (handles Q τ) 0
      fun _ held' => held' = 0 := by
  constructor
  · exact le_rfl
  · exists 0
    constructor
    · rfl
    · intro (answer : Except (Failure τ) Q)
      cases answer with
      | error e => rfl
      | ok queue =>
          apply (Plan.carries_bind (ambient .now) _).mpr
          apply (carries_ambient _).mono
          intro started held hheld
          subst hheld
          apply (Plan.carries_bind (push queue ticket.id).run _).mpr
          apply (leaves_push _).mono
          intro reply held hheld
          subst hheld
          cases reply with
          | error e =>
              apply (Plan.carries_bind (close queue) _).mpr
              exact carries_close
          | ok length =>
              apply (Plan.carries_bind _ _).mpr
              apply (entered_leaves ticket watched started (length - 1)).mono
              intro outcome held hheld
              subst hheld
              apply (Plan.carries_bind (close queue) _).mpr
              exact carries_close

theorem wait_leaves (ticket : Ticket τ) (watched : Bool) :
    Leaves (wait ticket watched : Operation Q τ Unit) 0 0 :=
  (Plan.carries_bind (follow ticket watched) _).mpr (follow_carries ticket watched)

theorem popHead_leaves (ticket : Ticket τ) :
    Leaves (popHead ticket : Operation Q τ Unit) 0 0 := by
  apply leaves_connect
  intro queue
  apply Action.leaves_bind (Action.leaves_ensuring (leaves_pop _) carries_close)
  intro popped
  exact leaves_record _ _

theorem renewExpiry_leaves (ticket : Ticket τ) :
    Leaves (renewExpiry ticket : Operation Q τ Unit) 0 0 := by
  apply leaves_connect
  intro queue
  apply Action.leaves_bind (Action.leaves_ensuring (leaves_expire _) carries_close)
  intro _
  exact leaves_record _ _

/-- Each leg opens and closes a queue of its own. -/
theorem cleanUp_leaves (ticket : Ticket τ) :
    Leaves (cleanUp ticket : Operation Q τ Unit) 0 0 := by
  exists 0, 0, 0
  constructor
  · rfl
  constructor
  · exact renewExpiry_leaves ticket
  constructor
  · exact popHead_leaves ticket
  · intro results?
    cases results? with
    | none => rfl
    | some results => rfl

theorem followWithin_carries (ticket : Ticket τ) (timeout : Option τ) :
    (followWithin ticket timeout : Plan (Service Q τ) τ (Waited τ)).Carries (handles Q τ) 0
      fun _ held' => held' = 0 := by
  cases timeout with
  | none => exact follow_carries ticket false
  | some limit =>
      exists 0, 0
      constructor
      · rfl
      constructor
      · exact fun _ => rfl
      constructor
      · exact follow_carries ticket false
      · intro lapse waited?
        rfl

theorem acquire_leaves (semaphore : Semaphore τ) (timeout : Option τ) :
    Leaves (acquire semaphore timeout : Operation Q τ Unit) 0 0 := by
  apply Action.leaves_bind (leaves_newTicket _)
  intro ticket
  apply Action.leaves_bind leaves_now
  intro started
  apply Action.leaves_bind (Action.leaves_lift (followWithin_carries _ _))
  intro waited
  dsimp only
  split
  · exact leaves_hold _
  · rename_i e hfailed
    have htimedOut : Leaves (do
        let elapsed ← elapsedSince started
        throw (.plain (.acquireTimeout semaphore.key timeout elapsed)) : Operation Q τ Unit)
        0 0 := by
      apply Action.leaves_bind (leaves_elapsedSince _)
      intro elapsed
      exact Action.leaves_throw _
    split
    · split
      · apply Action.leaves_bind (cleanUp_leaves _)
        intro _
        exact htimedOut
      · exact htimedOut
    · split
      · apply Action.leaves_bind (cleanUp_leaves _)
        intro _
        exact Action.leaves_throw _
      · exact Action.leaves_throw _

theorem release_leaves (semaphore : Semaphore τ) :
    Leaves (release semaphore : Operation Q τ Unit) 0 0 :=
  leaves_giveBack semaphore cleanUp_leaves

end Cooperative

/-!
## All operations
-/

/-- The operations that open queues. -/
inductive Opens : {α : Type} → Operation Q τ α → Prop where
  | blockingWait (ticket : Ticket τ) (timeout : Option τ) : Opens (Blocking.wait ticket timeout)
  | blockingCleanUp (ticket : Ticket τ) : Opens (Blocking.cleanUp ticket)
  | blockingAcquire (semaphore : Semaphore τ) (timeout : Option τ) :
      Opens (Blocking.acquire semaphore timeout)
  | blockingRelease (semaphore : Semaphore τ) : Opens (Blocking.release semaphore)
  | cooperativeWait (ticket : Ticket τ) (watched : Bool) : Opens (Cooperative.wait ticket watched)
  | cooperativeCleanUp (ticket : Ticket τ) : Opens (Cooperative.cleanUp ticket)
  | cooperativeAcquire (semaphore : Semaphore τ) (timeout : Option τ) :
      Opens (Cooperative.acquire semaphore timeout)
  | cooperativeRelease (semaphore : Semaphore τ) : Opens (Cooperative.release semaphore)
  | queueLength (semaphore : Semaphore τ) : Opens semaphore.queueLength

namespace Opens

theorem leaves {operation : Operation Q τ α} (h : Opens operation) : Leaves operation 0 0 := by
  cases h with
  | blockingWait ticket timeout => exact Blocking.wait_leaves ticket timeout
  | blockingCleanUp ticket => exact Blocking.cleanUp_leaves ticket
  | blockingAcquire semaphore timeout => exact Blocking.acquire_leaves semaphore timeout
  | blockingRelease semaphore => exact Blocking.release_leaves semaphore
  | cooperativeWait ticket watched => exact Cooperative.wait_leaves ticket watched
  | cooperativeCleanUp ticket => exact Cooperative.cleanUp_leaves ticket
  | cooperativeAcquire semaphore timeout => exact Cooperative.acquire_leaves semaphore timeout
  | cooperativeRelease semaphore => exact Cooperative.release_leaves semaphore
  | queueLength semaphore => exact leaves_queueLength semaphore

/-- Whatever an operation was answered so far, and wherever it was interrupted, it has used only
queues that were open.  When it has ended it has closed each queue as often as it was opened.  If no
queue was handed out twice, each was closed once, after it was opened and after its last use. -/
theorem closes_each_once {operation : Operation Q τ α} (h : Opens operation)
    {course : Plan.Course (Service Q τ) τ (Except (Failure τ) α)}
    (hleads : Plan.Course.Leads ⟨[], operation.run⟩ course) :
    (handles Q τ).Respected course.heard ∧
      ∀ outcome, course.plan = .pure outcome →
        (handles Q τ).opens course.heard = (handles Q τ).closes course.heard ∧
        (((handles Q τ).opens course.heard).Nodup → ∀ queue ∈ (handles Q τ).opens course.heard,
          ∃ before after, course.heard = before ++ ⟨.inl (.close queue), ()⟩ :: after ∧
            queue ∈ (handles Q τ).opens before ∧ queue ∉ (handles Q τ).closes before ∧
            queue ∉ (handles Q τ).closes after ∧
            ∀ later ∈ after, queue ∉ (handles Q τ).used later.1) := by
  rcases Plan.Carries.accounted h.leaves hleads with ⟨held, haccounted⟩
  constructor
  · exact haccounted.respected
  · intro outcome hended
    have hcarries := haccounted.carries
    rw [hended] at hcarries
    have hheld : held = 0 := hcarries
    have hbalance := haccounted.balance
    rw [hheld, add_zero] at hbalance
    constructor
    · exact hbalance
    · intro hnodup queue hopened
      rcases Plan.closed_once haccounted.respected hbalance hnodup hopened with
        ⟨before, ⟨r, answer⟩, after, hheard, hclosed, hrest⟩
      rcases r with r | r
      · cases r with
        | close other =>
            have hsame : queue = other := Multiset.mem_singleton.mp hclosed
            cases hsame
            exact ⟨before, after, hheard, hrest⟩
        | _ => exact absurd hclosed (Multiset.notMem_zero _)
      · exact absurd hclosed (Multiset.notMem_zero _)

/-!
## A waiter that is rejected
-/

def wicket : Semaphore Float where
  key := "wicket"
  maxPosition := 1
  sleepDuration := 0.1
  sound := by decide +kernel

/-- Surroundings in which two others have entered, and a removal is interrupted.  Each queue that is
opened is a new one. -/
def crowdedWicket : Plan.Surroundings (Service Nat Float)
  | heard, .inl (.connect ..) => Except.ok heard.length
  | _, .inl (.push ..) => Except.ok (3 : Nat)
  | _, .inl (.position ..) => Except.ok (none : Option Nat)
  | _, .inl (.pop ..) => Except.error Failure.interrupted
  | _, .inl (.expire ..) => Except.ok true
  | _, .inl (.length _) => Except.ok (3 : Nat)
  | _, .inl (.close _) => ()
  | _, .inr (.estimate _ _ base) => Except.ok base
  | _, .inr (.sleep _) => Except.ok ()
  | _, .inr .now => (0 : Float)
  | _, .inr (.record ..) => ()
  | _, .inr (.announce _) => Except.ok ()
  | _, .inr .freshId => "3"
  | _, .inr (.hold _) => ()
  | _, .inr .takeOldest => (none : Option (Ticket Float))

def rejectedCourse : Plan.Course (Service Nat Float) Float (Except (Failure Float) Unit) :=
  (Plan.Course.mk [] (Cooperative.acquire wicket none).run).after crowdedWicket 40

/-- A waiter that is rejected has closed three queues when it has ended, although the removal of its
entry was interrupted: the one in which it waited, and one for each leg of its clean-up. -/
theorem closes_each_once_at_wicket :
    Plan.Course.Leads ⟨[], (Cooperative.acquire wicket none).run⟩ rejectedCourse ∧
      (handles Nat Float).opens rejectedCourse.heard = {2, 8, 12} ∧
      ∀ queue ∈ (handles Nat Float).opens rejectedCourse.heard,
        ∃ before after, rejectedCourse.heard = before ++ ⟨.inl (.close queue), ()⟩ :: after ∧
          queue ∈ (handles Nat Float).opens before ∧ queue ∉ (handles Nat Float).closes before ∧
          queue ∉ (handles Nat Float).closes after ∧
          ∀ later ∈ after, queue ∉ (handles Nat Float).used later.1 := by
  have hleads := Plan.Course.leads_after crowdedWicket
    ⟨[], (Cooperative.acquire wicket none).run⟩ 40
  have hopens : (handles Nat Float).opens rejectedCourse.heard = {2, 8, 12} := by decide +kernel
  have hended : rejectedCourse.plan.result?.isSome = true := by decide +kernel
  rcases Option.isSome_iff_exists.mp hended with ⟨outcome, houtcome⟩
  have hcloses := (closes_each_once (.cooperativeAcquire wicket none) hleads).2 outcome
    (Plan.eq_of_result? houtcome)
  constructor
  · exact hleads
  constructor
  · exact hopens
  · apply hcloses.2
    change ((handles Nat Float).opens rejectedCourse.heard).Nodup
    rw [hopens]
    decide

end Opens
end Turnstile
