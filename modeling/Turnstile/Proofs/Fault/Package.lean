import Turnstile.Proofs.Exact.Basic
import Turnstile.Proofs.Fault.Report

/-!
# Only errors of the semaphore

Blocking operations and cooperative waits account for their failures request by request.  A clean-up
with two legs passes on the failure of a leg, and a request for a slot the failure of its wait or of
its clean-up, or it has run out of time.

## Main definitions

* `OnQueue` - the operations on the queue under a key.

## Main statements

* `OnQueue.only_semaphore_errors` - every failure is an error of the semaphore, and reports a fault
  as it was met.
-/

namespace Turnstile

open Redis

variable {τ α : Type} [Seconds τ] {key : String} {clock : τ → Prop} {cut : Prop} {began finish : τ}
  {heard : Heard τ} {ticket : Ticket τ} {semaphore : Semaphore τ} {limit : Option τ}

theorem ends_of_accounts {operation : Operation Queue τ α} {done : α → Prop}
    {ended : Except (Failure τ) α} (hsolo : operation.run.Solo)
    (haccounts : Accounts key clock cut heard operation done)
    (h : (onPremises operation).Lasts (Mishap.pace key clock) cut began heard finish ended) :
    Action.Ends (fun _ => done) (fun _ => Explained key cut heard) () ended := by
  apply h.of_meets (serve_solo hsolo) haccounts
  rintro exchange hmem ⟨_, _, hmishap⟩
  exact ⟨hmem, hmishap⟩

theorem Semaphore.queueLength_accounts :
    Accounts semaphore.queueKey clock cut heard semaphore.queueLength fun _ => True := by
  apply accounts_bind accounts_connect
  intro queue hqueue
  exact accounts_closing (accounts_length hqueue)

theorem Semaphore.giveBack_accounts {cleanUp : Ticket τ → Operation Queue τ Unit}
    (h : ∀ ticket, ticket.queueKey = semaphore.queueKey →
      Accounts semaphore.queueKey clock cut heard (cleanUp ticket) fun _ => True) :
    Accounts semaphore.queueKey clock cut heard (semaphore.giveBack cleanUp) fun _ => True := by
  apply accounts_bind accounts_takeOldest
  intro ticket? hticket
  cases ticket? with
  | none => exact accounts_throw (.own trivial)
  | some ticket => exact h ticket (hticket ticket rfl)

namespace Blocking

theorem allowedSleep_accounts {started duration : τ} (hclock : Measurable clock)
    (hstarted : clock started) (hduration : ¬ Seconds.Negative duration) :
    Accounts key clock cut heard (allowedSleep ticket limit started duration)
      fun allowed => ¬ Seconds.Negative allowed := by
  unfold allowedSleep
  cases limit with
  | none => exact accounts_pure hduration
  | some limit =>
      apply accounts_bind (accounts_elapsedSince hclock hstarted)
      intro elapsed _
      dsimp only
      split
      · apply accounts_bind (accounts_elapsedSince hclock hstarted)
        exact fun _ _ => accounts_throw (.own trivial)
      · rename_i hremaining
        exact accounts_pure (Seconds.not_negative_earlier hduration hremaining)

theorem look_accounts {queue : Queue} {started : τ} (hclock : Measurable clock)
    (hqueue : queue.key = key) (hstarted : clock started) (position : Int) :
    Accounts key clock cut heard (look queue ticket limit started position) fun _ => True := by
  unfold look
  cases ticket.verdict position with
  | admitted =>
      apply accounts_bind (accounts_elapsedSince hclock hstarted)
      intro elapsed _
      exact accounts_bind accounts_record fun _ _ => accounts_pure trivial
  | rejected => exact accounts_throw (.own trivial)
  | waiting =>
      apply accounts_bind accounts_estimate
      intro duration hduration
      apply accounts_bind (allowedSleep_accounts hclock hstarted hduration)
      intro allowed hallowed
      apply accounts_bind (accounts_sleep hallowed)
      intro _ _
      apply accounts_bind (accounts_position hqueue)
      intro rank _
      exact accounts_bind accounts_record fun _ _ => accounts_pure trivial

theorem wait_accounts (hclock : Measurable clock) :
    Accounts ticket.queueKey clock cut heard (wait ticket limit) fun _ => True := by
  apply accounts_bind accounts_connect
  intro queue hqueue
  apply accounts_closing
  apply accounts_bind accounts_now
  intro started hstarted
  apply accounts_bind (accounts_push hqueue)
  intro length _
  apply accounts_bind accounts_record
  intro _ _
  apply accounts_repeatFrom
  intro position
  exact (look_accounts hclock hqueue hstarted position).mono
    (fun _ result _ => by cases result <;> exact trivial) fun _ _ he => he

theorem keepError_accounts {step : Operation Queue τ Unit}
    (h : Accounts key clock cut heard step fun _ => True) :
    Accounts key clock cut heard (keepError step) fun kept? =>
      ∀ e, kept? = some e → Explained key cut heard e := by
  apply Action.meets_run
  apply h.mono
  · intro _ _ _ e he
    cases he
  · intro _ e he
    dsimp only
    split
    · intro e' he'
      cases he'
      exact he
    · exact he

theorem cleanUp_accounts :
    Accounts ticket.queueKey clock cut heard (cleanUp ticket) fun _ => True := by
  apply accounts_bind accounts_connect
  intro queue hqueue
  have hsteps : Accounts ticket.queueKey clock cut heard
      (do
        let ofPop ← keepError do
          let popped ← Service.pop queue 1
          Service.record .blocking (.popped popped ticket.queueKey)
        let ofExpire ← keepError do
          let _ ← Service.expire queue ticket.expiry
        pure (ofPop.or ofExpire))
      fun kept? => ∀ e, kept? = some e → Explained ticket.queueKey cut heard e := by
    apply accounts_bind
    · apply keepError_accounts
      exact accounts_bind (accounts_pop hqueue) fun _ _ => accounts_record
    · intro ofPop hpop
      apply accounts_bind
      · apply keepError_accounts
        exact accounts_bind (accounts_expire hqueue) fun _ _ => accounts_pure trivial
      · intro ofExpire hexpire
        apply accounts_pure
        cases ofPop with
        | none => exact hexpire
        | some e => exact hpop
  apply accounts_bind (accounts_closing hsteps)
  intro kept? hkept
  cases kept? with
  | none => exact accounts_pure trivial
  | some e => exact accounts_throw (hkept e rfl)

theorem acquire_accounts (hclock : Measurable clock) :
    Accounts semaphore.queueKey clock cut heard (acquire semaphore limit) fun _ => True := by
  apply accounts_bind accounts_newTicket
  intro ticket hticket
  rw [← hticket]
  refine accounts_bind (?_ : Accounts ticket.queueKey clock cut heard _ fun _ => True)
    fun _ _ => accounts_hold
  apply Action.keeps_tryCatch
  apply (wait_accounts hclock).mono
  · exact fun _ _ _ => trivial
  · intro _ e he
    dsimp only
    split
    · exact accounts_bind cleanUp_accounts fun _ _ => accounts_throw he
    · exact accounts_throw he

theorem release_accounts :
    Accounts semaphore.queueKey clock cut heard (release semaphore) fun _ => True := by
  apply Semaphore.giveBack_accounts
  intro ticket hticket
  rw [← hticket]
  exact cleanUp_accounts

end Blocking

namespace Cooperative

theorem look_accounts {queue : Queue} {started : τ} (hclock : Measurable clock)
    (hqueue : queue.key = key) (hstarted : clock started) (position : Int) :
    Accounts key clock cut heard (look queue ticket started position) fun _ => True := by
  unfold look
  cases ticket.verdict position with
  | admitted =>
      apply accounts_bind (accounts_elapsedSince hclock hstarted)
      intro elapsed _
      exact accounts_bind accounts_record fun _ _ => accounts_pure trivial
  | rejected => exact accounts_bind accounts_record fun _ _ => accounts_throw (.own trivial)
  | waiting =>
      apply accounts_bind accounts_estimate
      intro duration hduration
      apply accounts_bind accounts_record
      intro _ _
      apply accounts_bind (accounts_sleep hduration)
      intro _ _
      apply accounts_bind (accounts_position hqueue)
      intro rank _
      have hmoved : Accounts key clock cut heard (do
          Service.record .cooperative (.moved (positionOfRank rank))
          pure (.inl (positionOfRank rank))) fun (_ : Int ⊕ Unit) => True :=
        accounts_bind accounts_record fun _ _ => accounts_pure trivial
      dsimp only
      split
      · exact accounts_bind accounts_record fun _ _ => hmoved
      · exact hmoved

/-- A wait that was followed has ended with a failure that is accounted for, or with none. -/
def Sound (key : String) (cut : Prop) (heard : Heard τ) (waited : Waited τ) : Prop :=
  ∀ e, waited.outcome = .error e → Explained key cut heard e

theorem follow_sound {watched : Bool} (hclock : Measurable clock) :
    ((follow ticket watched).serve serveOnPremises).Meets
      (Mishap.terms ticket.queueKey clock cut heard) ()
      fun _ => Sound ticket.queueKey cut heard := by
  apply Action.meets_run
  apply accounts_connect.mono
  · intro _ queue hqueue
    apply Action.meets_serve_bind
    apply meets_ambient
    intro started hstarted
    have hshown : clock started := by
      cases hstarted.2 with
      | shows shown => exact shown
    apply Action.meets_run
    apply (accounts_push hqueue).mono
    · intro _ length _
      have hturns : Accounts ticket.queueKey clock cut heard (do
          Service.record .cooperative (.entered ticket.queueKey (length - 1))
          Action.repeatFrom (length - 1 : Int) (look queue ticket started)) fun _ => True := by
        apply accounts_bind accounts_record
        intro _ _
        apply accounts_repeatFrom
        intro position
        exact (look_accounts hclock hqueue hshown position).mono
          (fun _ result _ => by cases result <;> exact trivial) fun _ _ he => he
      apply Action.meets_run
      have hbody : Accounts ticket.queueKey clock cut heard (do
          if watched then
            Service.announce (length - 1)
          Service.record .cooperative (.entered ticket.queueKey (length - 1))
          Action.repeatFrom (length - 1 : Int) (look queue ticket started)) fun _ => True := by
        cases watched with
        | false => exact hturns
        | true => exact accounts_bind accounts_announce fun _ _ => hturns
      apply hbody.mono
      · intro _ _ _
        apply Action.meets_serve_bind
        apply Mishap.meets_close
        intro e he
        cases he
      · intro _ e he
        apply Action.meets_serve_bind
        apply Mishap.meets_close
        rintro e' heq
        cases heq
        exact he
    · intro _ e he
      apply Action.meets_serve_bind
      apply Mishap.meets_close
      rintro e' heq
      cases heq
      exact he
  · intro _ e he e' heq
    cases heq
    exact he

theorem wait_accounts {watched : Bool} (hclock : Measurable clock) :
    Accounts ticket.queueKey clock cut heard (wait ticket watched) fun _ => True := by
  apply Action.meets_serve_bind
  apply (follow_sound hclock).mono
  rintro _ ⟨enqueued, outcome⟩ hsound
  cases outcome with
  | ok _ => exact trivial
  | error e => exact hsound e rfl

theorem renewExpiry_accounts :
    Accounts ticket.queueKey clock cut heard (renewExpiry ticket) fun _ => True := by
  apply accounts_bind accounts_connect
  intro queue hqueue
  exact accounts_bind (accounts_closing (accounts_expire hqueue)) fun _ _ => accounts_record

theorem popHead_accounts :
    Accounts ticket.queueKey clock cut heard (popHead ticket) fun _ => True := by
  apply accounts_bind accounts_connect
  intro queue hqueue
  exact accounts_bind (accounts_closing (accounts_pop hqueue)) fun _ _ => accounts_record

/-!
## Clean-ups with two legs
-/

theorem cleanUp_explained {e : Failure τ}
    (h : (onPremises (cleanUp ticket)).Lasts (Mishap.pace ticket.queueKey clock) False began heard
      finish (.error e)) : Explained ticket.queueKey False heard e := by
  rcases lasts_cleanUp h with
    ⟨renewal, removal, _, _, ofExpire, ofPop, rfl, hrenewal, hremoval, hended | ⟨hcut, _⟩⟩
  · have hexpire := ends_of_accounts (Tidy.renewExpiry_straight ticket).solo renewExpiry_accounts
      hrenewal
    have hpop := ends_of_accounts (Tidy.popHead_straight ticket).solo popHead_accounts hremoval
    cases ofExpire with
    | error e' =>
        rw [joined_error, Explained.ofLeg hexpire] at hended
        cases hended
        exact Explained.mono hexpire (List.subset_append_left _ _)
    | ok _ =>
        cases ofPop with
        | error e' =>
            rw [joined_error, Explained.ofLeg hpop] at hended
            cases hended
            exact Explained.mono hpop (List.subset_append_right _ _)
        | ok _ => cases hended
  · exact hcut.elim

theorem release_explained {e : Failure τ}
    (h : (onPremises (release semaphore)).Lasts (Mishap.pace semaphore.queueKey clock) False began
      heard finish (.error e)) : Explained semaphore.queueKey False heard e := by
  rcases lasts_bind h with ⟨before, after, between, ticket?, rfl, htakes, hrest⟩ | ⟨e', htakes, heq⟩
  · rcases lasts_ambient htakes with ⟨_, heq, rfl, hmishap⟩
    cases heq
    cases ticket? with
    | none =>
        rcases Plan.lasts_pure hrest with ⟨rfl, rfl, heq⟩
        cases heq
        exact .own trivial
    | some ticket =>
        cases hmishap with
        | takes ofQueue =>
            have hkey := ofQueue ticket rfl
            rw [← hkey] at hrest ⊢
            exact (cleanUp_explained hrest).mono (List.subset_append_right _ _)
  · rcases lasts_ambient htakes with ⟨_, heq, _⟩
    cases heq

/-!
## Requests for a slot
-/

theorem lasts_follow_sound {waited : Waited τ} (hclock : Measurable clock)
    (h : ((follow ticket false).serve serveOnPremises).Lasts (Mishap.pace ticket.queueKey clock) cut
      began heard finish waited) : Sound ticket.queueKey cut heard waited := by
  apply h.of_meets (serve_solo (follow_solo ticket false)) (follow_sound hclock)
  rintro exchange hmem ⟨_, _, hmishap⟩
  exact ⟨hmem, hmishap⟩

theorem followWithin_explained {waited : Waited τ} {e : Failure τ} (hclock : Measurable clock)
    (h : ((followWithin ticket limit).serve serveOnPremises).Lasts
      (Mishap.pace ticket.queueKey clock) False began heard finish waited)
    (he : waited.outcome = .error e) :
    e = .limitPassed ∨ Explained ticket.queueKey False heard e := by
  rcases lasts_followWithin h with halone | ⟨_, _, _, _, rfl⟩ | ⟨_, alone, _, _, halone, rfl⟩ | hcut
  · exact Or.inr (lasts_follow_sound hclock halone e he)
  · cases he
    exact Or.inl rfl
  · have hsound := lasts_follow_sound hclock halone
    rcases alone with ⟨enqueued, outcome⟩
    cases outcome with
    | ok _ => cases he
    | error e' =>
        -- Only the interruption by the limit is turned into a timeout.
        have hexplained := hsound e' rfl
        by_cases hinterrupted : e' = .interrupted
        · subst hinterrupted
          cases he
          exact Or.inl rfl
        · have hsame : limited .expired (some ⟨enqueued, .error e'⟩) = ⟨enqueued, .error e'⟩ := by
            cases e' <;> first | rfl | exact absurd rfl hinterrupted
          rw [hsame] at he
          cases he
          exact Or.inr (hexplained.of_ne_interrupted hinterrupted)
  · exact hcut.1.elim

theorem acquire_explained {e : Failure τ} (hclock : Measurable clock)
    (h : (onPremises (acquire semaphore limit)).Lasts (Mishap.pace semaphore.queueKey clock) False
      began heard finish (.error e)) : Explained semaphore.queueKey False heard e := by
  rcases lasts_acquire h with ⟨id, asked, rest, rfl, hnames, hissue⟩
  have hid : id ≠ "" := by
    cases hnames with
    | names named => exact named
  rcases semaphore.exists_issue hid with ⟨ticket, hticket⟩
  rcases hissue with ⟨defect, hdefect, _⟩ |
    ⟨ticket', started, entered, waiting, closing, waited, between, hticket', rfl, hnow, hwaits,
      hsettles⟩
  · rw [hticket] at hdefect
    cases hdefect
  · have hkey : ticket'.queueKey = semaphore.queueKey :=
      congrArg TicketForm.queueKey (TicketForm.toTicketForm_of_issue hticket')
    rw [← hkey] at hwaits hsettles hnow ⊢
    have hstarted : clock started := by
      cases hnow with
      | shows shown => exact shown
    cases lasts_settle hsettles with
    | unpaid outcome cleans =>
        refine (cleanUp_explained cleans).mono ?_
        intro exchange hmem
        exact List.mem_cons_of_mem _ (List.mem_cons_of_mem _ (List.mem_append_right _ hmem))
    | late outcome timeout shows measured => exact .own trivial
    | @unmeasured _ _ time defect outcome timeout shows unmeasured =>
        have hshown : clock time := by
          cases shows with
          | shows shown => exact shown
        rcases hclock started time hstarted hshown with ⟨ms, hms⟩
        rw [hms] at unmeasured
        cases unmeasured
    | passed outcome timely =>
        rcases followWithin_explained hclock hwaits outcome with rfl | hexplained
        · cases timely
        · apply hexplained.mono
          intro exchange hmem
          exact List.mem_cons_of_mem _ (List.mem_cons_of_mem _ (List.mem_append_left _ hmem))

end Cooperative

/-!
## All operations
-/

/-- The operations on the queue under a key. -/
inductive OnQueue : {α : Type} → String → Operation Queue τ α → Prop where
  | blockingWait (ticket : Ticket τ) (limit : Option τ) :
      OnQueue ticket.queueKey (Blocking.wait ticket limit)
  | blockingCleanUp (ticket : Ticket τ) : OnQueue ticket.queueKey (Blocking.cleanUp ticket)
  | blockingAcquire (semaphore : Semaphore τ) (limit : Option τ) :
      OnQueue semaphore.queueKey (Blocking.acquire semaphore limit)
  | blockingRelease (semaphore : Semaphore τ) :
      OnQueue semaphore.queueKey (Blocking.release semaphore)
  | cooperativeWait (ticket : Ticket τ) (watched : Bool) :
      OnQueue ticket.queueKey (Cooperative.wait ticket watched)
  | cooperativeCleanUp (ticket : Ticket τ) : OnQueue ticket.queueKey (Cooperative.cleanUp ticket)
  | cooperativeAcquire (semaphore : Semaphore τ) (limit : Option τ) :
      OnQueue semaphore.queueKey (Cooperative.acquire semaphore limit)
  | cooperativeRelease (semaphore : Semaphore τ) :
      OnQueue semaphore.queueKey (Cooperative.release semaphore)
  | queueLength (semaphore : Semaphore τ) : OnQueue semaphore.queueKey semaphore.queueLength

namespace OnQueue

theorem explained {operation : Operation Queue τ α} {e : Failure τ} (hon : OnQueue key operation)
    (hclock : Measurable clock)
    (h : (onPremises operation).Lasts (Mishap.pace key clock) False began heard finish (.error e)) :
    Explained key False heard e := by
  cases hon with
  | blockingWait ticket limit =>
      exact ends_of_accounts (Blocking.wait_solo ticket limit) (Blocking.wait_accounts hclock) h
  | blockingCleanUp ticket =>
      exact ends_of_accounts (Tidy.blocking_straight ticket).solo Blocking.cleanUp_accounts h
  | blockingAcquire semaphore limit =>
      exact ends_of_accounts (Blocking.acquire_solo semaphore limit)
        (Blocking.acquire_accounts hclock) h
  | blockingRelease semaphore =>
      exact ends_of_accounts (Blocking.release_solo semaphore) Blocking.release_accounts h
  | cooperativeWait ticket watched =>
      exact ends_of_accounts (Cooperative.wait_solo ticket watched)
        (Cooperative.wait_accounts hclock) h
  | cooperativeCleanUp ticket => exact Cooperative.cleanUp_explained h
  | cooperativeAcquire semaphore limit => exact Cooperative.acquire_explained hclock h
  | cooperativeRelease semaphore => exact Cooperative.release_explained h
  | queueLength semaphore =>
      exact ends_of_accounts semaphore.queueLength_solo Semaphore.queueLength_accounts h

/-- Whatever errors of its client an operation meets, at whatever commands, and whatever else it is
answered, it fails only with an error of the semaphore.  This says something about the semaphore, or
it has for its cause an error of the client with which a command of the operation met.  Then it says
that the store could not be reached just when that error was a lost connection or a timeout, and
names the command and the key of the queue if it was any other. -/
theorem only_semaphore_errors {operation : Operation Queue τ α} {e : Failure τ}
    (hon : OnQueue key operation) (hclock : Measurable clock)
    (h : (onPremises operation).Lasts (Mishap.pace key clock) False began heard finish (.error e)) :
    e.isA .semaphore = true ∧
      ((∃ error, e = .plain error ∧ error.Own) ∨
        ∃ client command error report, fault client command error ∈ heard ∧
          (command.key? = none ∨ command.key? = some key) ∧
          e = .semaphore report (some (.client error)) ∧ Reports key command error report) := by
  have hexplained := hon.explained hclock h
  refine ⟨hexplained.isA_semaphore, ?_⟩
  cases hexplained with
  | own own => exact Or.inl ⟨_, rfl, own⟩
  | reports met about reports => exact Or.inr ⟨_, _, _, _, met, about, rfl, reports⟩
  | interrupted interrupted => exact interrupted.elim

/-!
## A release that fails twice
-/

def deskTicket : Ticket ℚ where
  queueKey := "desk"
  id := "a"
  baseSleep := 1
  sound := by decide +kernel

def reset : ClientError :=
  ⟨.connection, "Connection reset by peer"⟩

/-- While the slot is given back the connection is lost to one leg, and the key turns out to hold no
list to the other.  The first is reported. -/
theorem only_semaphore_errors_at_desk : ∃ heard finish e,
    (onPremises (Cooperative.cleanUp deskTicket)).Lasts (Mishap.pace "desk" fun _ => True) False 0
        heard finish (.error e) ∧
      e = .semaphore (.storeConnection "localhost:6379/0" "Connection reset by peer")
        (some (.client reset)) ∧
      e.isA .semaphore = true ∧
        ((∃ error, e = .plain error ∧ error.Own) ∨
          ∃ client command error report, fault client command error ∈ heard ∧
            (command.key? = none ∨ command.key? = some "desk") ∧
            e = .semaphore report (some (.client error)) ∧
            Reports "desk" command error report) := by
  have hclock : Measurable fun _ : ℚ => True := fun started time _ _ => ⟨_, rfl⟩
  let client : Client := ⟨0, defaultEndpoint, {}⟩
  have hping : Command.Readable .ping () := trivial
  have hreset : reset.kind.family ≠ .outside := by decide
  have hwrong : ClientError.wrongType.kind.family ≠ .outside := by decide
  have hruns : ∃ heard finish, (onPremises (Cooperative.cleanUp deskTicket)).Lasts
      (Mishap.pace "desk" fun _ => True) False 0 heard finish
      (.error (.semaphore (.storeConnection "localhost:6379/0" "Connection reset by peer")
        (some (.client reset)))) := by
    apply Exists.intro
    apply Exists.intro
    apply Plan.Lasts.joined
    · apply Mishap.lasts_ask (Mishap.dials deskTicket.endpoint client)
      apply Mishap.lasts_ask (Mishap.replies client hping)
      apply Mishap.lasts_ask (Mishap.fails client (.expire "desk" 30) hreset)
      apply Mishap.lasts_ask (Mishap.hangsUp client)
      exact .ended _ 0 _
    · apply Mishap.lasts_ask (Mishap.dials deskTicket.endpoint client)
      apply Mishap.lasts_ask (Mishap.replies client hping)
      apply Mishap.lasts_ask (Mishap.fails client (.lpop "desk" 1) hwrong)
      apply Mishap.lasts_ask (Mishap.hangsUp client)
      exact .ended _ 0 _
    · exact .ended _ _ _
  rcases hruns with ⟨heard, finish, hruns⟩
  exact ⟨heard, finish, _, hruns, rfl,
    only_semaphore_errors (.cooperativeCleanUp deskTicket) hclock hruns⟩

end OnQueue
end Turnstile
