import Turnstile.Proofs.Plan.Duration
import Turnstile.Proofs.Tidy.CleanUp

/-!
# Operations that have come to their end

Whatever goes wrong around an operation, when it is over it has heard some answers and it has ended
with a result or a failure.  An operation is taken apart by what it heard: first the one part of it
was over, and then the other.

Most operations follow no plans side by side or under a limit.  The two that do are the cooperative
clean-up and the cooperative request for a slot.

## Main definitions

* `Cooperative.settle` - what is left of a request for a slot when its wait is over.
* `Cooperative.Settles` - how that comes to its end.

## Main statements

* `Cooperative.lasts_cleanUp` - what a clean-up heard, and how it ended, by its two legs.
* `Cooperative.lasts_followWithin` - how a wait under a limit ended, by how it ends alone.
* `Cooperative.lasts_acquire` and `Cooperative.lasts_settle` - the parts of a request for a slot.
-/

namespace Turnstile

open Redis

variable {τ α β : Type} [Seconds τ]

abbrev Heard (τ : Type) [Seconds τ] : Type :=
  List (Plan.Exchange (Premises τ))

variable {pace : Plan.Pace (Premises τ) τ} {cut : Prop} {began finish : τ} {heard : Heard τ}
  {ticket : Ticket τ} {semaphore : Semaphore τ} {limit : Option τ}

/-!
## Parts of an operation
-/

theorem lasts_bind {action : Operation Queue τ α} {next : α → Operation Queue τ β}
    {ended : Except (Failure τ) β}
    (h : (onPremises (action >>= next)).Lasts pace cut began heard finish ended) :
    (∃ before after between a, heard = before ++ after ∧
        (onPremises action).Lasts pace cut began before between (.ok a) ∧
        (onPremises (next a)).Lasts pace cut between after finish ended) ∨
      ∃ e, (onPremises action).Lasts pace cut began heard finish (.error e) ∧ ended = .error e := by
  rw [onPremises_bind] at h
  rcases h.of_bind with ⟨before, after, between, first, rfl, hfirst, hrest⟩
  cases first with
  | ok a => exact Or.inl ⟨before, after, between, a, rfl, hfirst, hrest⟩
  | error e =>
      rcases Plan.lasts_pure hrest with ⟨rfl, rfl, rfl⟩
      rw [List.append_nil]
      exact Or.inr ⟨e, hfirst, rfl⟩

theorem lasts_lift {plan : Plan (Service Queue τ) τ α} {ended : Except (Failure τ) α}
    (h : (onPremises (ExceptT.lift plan)).Lasts pace cut began heard finish ended) :
    ∃ a, ended = .ok a ∧ (plan.serve serveOnPremises).Lasts pace cut began heard finish a := by
  rw [onPremises_lift] at h
  rcases h.of_bind with ⟨before, after, between, a, rfl, hfirst, hrest⟩
  rcases Plan.lasts_pure hrest with ⟨rfl, rfl, rfl⟩
  rw [List.append_nil]
  exact ⟨a, rfl, hfirst⟩

theorem lasts_ensuring {closing : Plan (Service Queue τ) τ Unit} {body : Operation Queue τ α}
    {ended : Except (Failure τ) α}
    (h : (onPremises (Action.ensuring closing body)).Lasts pace cut began heard finish ended) :
    ∃ before after between, heard = before ++ after ∧
      (onPremises body).Lasts pace cut began before between ended ∧
      (closing.serve serveOnPremises).Lasts pace cut between after finish () := by
  rw [onPremises_ensuring] at h
  rcases h.of_bind with ⟨before, rest, between, first, rfl, hfirst, hrest⟩
  rw [Plan.serve_bind] at hrest
  rcases hrest.of_bind with ⟨after, last, closed, _, rfl, hclosing, hlast⟩
  rcases Plan.lasts_pure hlast with ⟨rfl, rfl, rfl⟩
  rw [List.append_nil]
  exact ⟨before, after, between, rfl, hfirst, hclosing⟩

theorem lasts_ambient {r : AmbientRequest τ} {ended : Except (Failure τ) (r.Answer τ)}
    (h : (onPremises (ExceptT.lift (Service.ambient r))).Lasts pace cut began heard finish ended) :
    ∃ answer, ended = .ok answer ∧ heard = [⟨.inr r, answer⟩] ∧
      pace cut began (.inr r) answer finish := by
  rcases lasts_lift h with ⟨answer, rfl, hplan⟩
  rcases Plan.lasts_ask hplan with ⟨answer', met, rest, rfl, hanswer, hrest⟩
  rcases Plan.lasts_pure hrest with ⟨rfl, rfl, rfl⟩
  exact ⟨answer, rfl, rfl, hanswer⟩

theorem lasts_elapsedSince {started : τ} {ended : Except (Failure τ) Int}
    (h : (onPremises (Service.elapsedSince started)).Lasts pace cut began heard finish ended) :
    ∃ time : τ, pace cut began (.inr .now) time finish ∧
      ((∃ ms, Seconds.toMillis (time - started) = .ok ms ∧ ended = .ok ms) ∨
        ∃ defect, Seconds.toMillis (time - started) = .error defect ∧
          ended = .error (.ofUnmeasurable defect)) := by
  rcases lasts_bind h with ⟨before, after, between, time, rfl, hnow, hrest⟩ | ⟨e, hnow, rfl⟩
  · rcases lasts_ambient hnow with ⟨answer, hanswer, rfl, hpace⟩
    cases hanswer
    split at hrest
    · rename_i ms hms
      rcases Plan.lasts_pure hrest with ⟨rfl, rfl, rfl⟩
      exact ⟨time, hpace, Or.inl ⟨ms, hms, rfl⟩⟩
    · rename_i defect hdefect
      rcases Plan.lasts_pure hrest with ⟨rfl, rfl, rfl⟩
      exact ⟨time, hpace, Or.inr ⟨defect, hdefect, rfl⟩⟩
  · rcases lasts_ambient hnow with ⟨answer, hanswer, _⟩
    cases hanswer

theorem lasts_newTicket {ended : Except (Failure τ) (Ticket τ)}
    (h : (onPremises semaphore.newTicket).Lasts pace cut began heard finish ended) :
    ∃ id, heard = [⟨.inr .freshId, id⟩] ∧ pace cut began (.inr .freshId) id finish ∧
      ((∃ ticket, (semaphore.ticketForm id).issue = .ok ticket ∧ ended = .ok ticket) ∨
        ∃ defect, (semaphore.ticketForm id).issue = .error defect ∧
          ended = .error (.invalid defect.message)) := by
  rcases lasts_bind h with ⟨before, after, between, id, rfl, hfirst, hrest⟩ | ⟨e, hfirst, rfl⟩
  · rcases lasts_ambient hfirst with ⟨answer, hanswer, rfl, hpace⟩
    cases hanswer
    cases hissue : (semaphore.ticketForm id).issue with
    | ok ticket =>
        rw [hissue] at hrest
        rcases Plan.lasts_pure hrest with ⟨rfl, rfl, rfl⟩
        exact ⟨id, rfl, hpace, Or.inl ⟨ticket, hissue, rfl⟩⟩
    | error defect =>
        rw [hissue] at hrest
        rcases Plan.lasts_pure hrest with ⟨rfl, rfl, rfl⟩
        exact ⟨id, rfl, hpace, Or.inr ⟨defect, hissue, rfl⟩⟩
  · rcases lasts_ambient hfirst with ⟨answer, hanswer, _⟩
    cases hanswer

/-!
## Operations on their own
-/

theorem serve_solo {plan : Plan (Service Queue τ) τ α} (h : plan.Solo) :
    (plan.serve serveOnPremises).Solo :=
  h.serve fun r => (serveOnPremises_straight r).solo

theorem elapsedSince_solo (started : τ) :
    (Service.elapsedSince started : Operation Queue τ Int).run.Solo := by
  apply Action.solo_bind
  · exact fun _ => trivial
  · intro time
    split
    · exact trivial
    · exact trivial

theorem Semaphore.newTicket_solo (semaphore : Semaphore τ) :
    (semaphore.newTicket : Operation Queue τ (Ticket τ)).run.Solo := by
  apply Action.solo_bind
  · exact fun _ => trivial
  · intro id
    split
    · exact trivial
    · exact trivial

theorem Semaphore.queueLength_solo (semaphore : Semaphore τ) :
    (semaphore.queueLength : Operation Queue τ Nat).run.Solo := by
  apply Action.solo_bind
  · exact fun _ => trivial
  · intro queue
    exact Action.solo_ensuring (fun _ => trivial) fun _ => trivial

namespace Blocking

theorem allowedSleep_solo (ticket : Ticket τ) (limit : Option τ) (started duration : τ) :
    (allowedSleep ticket limit started duration : Operation Queue τ τ).run.Solo := by
  unfold allowedSleep
  cases limit with
  | none => exact trivial
  | some limit =>
      apply Action.solo_bind (elapsedSince_solo started)
      intro elapsed
      dsimp only
      split
      · exact Action.solo_bind (elapsedSince_solo started) fun _ => trivial
      · exact trivial

theorem look_solo (queue : Queue) (ticket : Ticket τ) (limit : Option τ) (started : τ)
    (position : Int) : (look queue ticket limit started position).run.Solo := by
  unfold look
  cases ticket.verdict position with
  | admitted => exact Action.solo_bind (elapsedSince_solo started) fun _ _ => trivial
  | rejected => exact trivial
  | waiting =>
      apply Action.solo_bind
      · exact fun _ => trivial
      · intro duration
        apply Action.solo_bind (allowedSleep_solo ticket limit started duration)
        intro allowed
        apply Action.solo_bind
        · exact fun _ => trivial
        · intro _
          apply Action.solo_bind
          · exact fun _ => trivial
          · exact fun _ _ => trivial

theorem wait_solo (ticket : Ticket τ) (limit : Option τ) :
    (wait ticket limit : Operation Queue τ Unit).run.Solo := by
  apply Action.solo_bind
  · exact fun _ => trivial
  · intro queue
    apply Action.solo_ensuring
    · intro (started : τ)
      apply Action.solo_bind
      · exact fun _ => trivial
      · intro length _
        exact Action.solo_repeatFrom (look_solo queue ticket limit started)
    · exact fun _ => trivial

theorem acquire_solo (semaphore : Semaphore τ) (limit : Option τ) :
    (acquire semaphore limit : Operation Queue τ Unit).run.Solo := by
  apply Action.solo_bind semaphore.newTicket_solo
  intro ticket
  apply Action.solo_bind
  · apply Action.solo_tryCatch (wait_solo ticket limit)
    intro e
    dsimp only
    split
    · exact Action.solo_bind (Tidy.blocking_straight ticket).solo fun _ => trivial
    · exact trivial
  · exact fun _ _ => trivial

theorem release_solo (semaphore : Semaphore τ) :
    (release semaphore : Operation Queue τ Unit).run.Solo := by
  intro (ticket? : Option (Ticket τ))
  cases ticket? with
  | none => exact trivial
  | some ticket => exact (Tidy.blocking_straight ticket).solo

end Blocking

namespace Cooperative

theorem look_solo (queue : Queue) (ticket : Ticket τ) (started : τ) (position : Int) :
    (look queue ticket started position).run.Solo := by
  unfold look
  cases ticket.verdict position with
  | admitted => exact Action.solo_bind (elapsedSince_solo started) fun _ _ => trivial
  | rejected => exact fun _ => trivial
  | waiting =>
      apply Action.solo_bind
      · exact fun _ => trivial
      · intro duration _
        apply Action.solo_bind
        · exact fun _ => trivial
        · intro _
          apply Action.solo_bind
          · exact fun _ => trivial
          · intro rank
            dsimp only
            split
            · exact fun _ _ => trivial
            · exact fun _ => trivial

theorem follow_solo (ticket : Ticket τ) (watched : Bool) :
    (follow ticket watched : Plan (Service Queue τ) τ (Waited τ)).Solo := by
  have hturns : ∀ queue started position,
      (Action.repeatFrom position (look queue ticket started)).run.Solo :=
    fun queue started _ => Action.solo_repeatFrom (look_solo queue ticket started)
  apply Plan.Solo.bind
  · exact fun _ => trivial
  · intro queue?
    cases queue? with
    | error e => exact trivial
    | ok queue =>
        apply Plan.Solo.bind
        · exact fun _ => trivial
        · intro started
          apply Plan.Solo.bind
          · exact fun _ => trivial
          · intro length?
            cases length? with
            | error e => exact fun _ => trivial
            | ok length =>
                apply Plan.Solo.bind
                · cases watched with
                  | false => exact fun _ => hturns queue started _
                  | true =>
                      apply Action.solo_bind
                      · exact fun _ => trivial
                      · exact fun _ _ => hturns queue started _
                · exact fun _ _ => trivial

theorem wait_solo (ticket : Ticket τ) (watched : Bool) :
    (wait ticket watched : Operation Queue τ Unit).run.Solo :=
  Plan.Solo.bind (follow_solo ticket watched) fun _ => trivial

/-!
## Clean-ups with two legs
-/

/-- A clean-up is over when both of its legs are, which began together.  If it was interrupted their
ends are lost. -/
theorem lasts_cleanUp {ended : Except (Failure τ) Unit}
    (h : (onPremises (cleanUp ticket)).Lasts pace cut began heard finish ended) :
    ∃ renewal removal overRenewal overRemoval ofExpire ofPop, heard = renewal ++ removal ∧
      (onPremises (renewExpiry ticket)).Lasts pace cut began renewal overRenewal ofExpire ∧
      (onPremises (popHead ticket)).Lasts pace cut began removal overRemoval ofPop ∧
      (ended = (do
          joined "expire" ofExpire
          joined "lpop" ofPop) ∨
        cut ∧ ended = .error .interrupted) := by
  cases h with
  | joined ofLeft ofRight rest =>
      rcases Plan.lasts_pure rest with ⟨rfl, rfl, rfl⟩
      exact ⟨_, _, _, _, _, _, List.append_nil _, ofLeft, ofRight, Or.inl rfl⟩
  | parted interrupted ofLeft ofRight rest =>
      rcases Plan.lasts_pure rest with ⟨rfl, rfl, rfl⟩
      exact ⟨_, _, _, _, _, _, List.append_nil _, ofLeft, ofRight, Or.inr ⟨interrupted, rfl⟩⟩

/-!
## Requests for a slot
-/

/-- A wait has ended as it does alone, or it has run out of time before it began or later, or it was
interrupted from outside. -/
theorem lasts_followWithin {waited : Waited τ}
    (h : ((followWithin ticket limit).serve serveOnPremises).Lasts pace cut began heard finish
      waited) :
    ((follow ticket false).serve serveOnPremises).Lasts pace cut began heard finish waited ∨
      (∃ duration, limit = some duration ∧ duration ≤ 0 ∧ finish = began ∧
        waited = ⟨false, .error .limitPassed⟩) ∨
      (∃ duration alone, limit = some duration ∧ began + duration ≤ finish ∧
        ((follow ticket false).serve serveOnPremises).Lasts pace True began heard finish alone ∧
        waited = limited .expired (some alone)) ∨
      cut ∧ waited.outcome = .error .interrupted := by
  unfold followWithin at h
  cases limit with
  | none => exact Or.inl h
  | some duration =>
      cases h with
      | late passed rest =>
          rcases Plan.lasts_pure rest with ⟨rfl, rfl, rfl⟩
          exact Or.inr (Or.inl ⟨duration, rfl, passed, rfl, rfl⟩)
      | inTime left ofBody rest =>
          rcases Plan.lasts_pure rest with ⟨rfl, rfl, rfl⟩
          rw [List.append_nil]
          exact Or.inl ofBody
      | expired left ofBody passed rest =>
          rcases Plan.lasts_pure rest with ⟨rfl, rfl, rfl⟩
          rw [List.append_nil]
          exact Or.inr (Or.inr (Or.inl ⟨duration, _, rfl, passed, ofBody, rfl⟩))
      | interrupted interrupted left ofBody rest =>
          rcases Plan.lasts_pure rest with ⟨rfl, rfl, rfl⟩
          exact Or.inr (Or.inr (Or.inr ⟨interrupted, rfl⟩))
      | withdrawn interrupted left rest =>
          rcases Plan.lasts_pure rest with ⟨rfl, rfl, rfl⟩
          exact Or.inr (Or.inr (Or.inr ⟨interrupted, rfl⟩))

/-- What is left of a request for a slot when its wait is over. -/
def settle (semaphore : Semaphore τ) (limit : Option τ) (ticket : Ticket τ) (started : τ)
    (waited : Waited τ) : Operation Queue τ Unit :=
  match waited.outcome with
  | .ok () => Service.hold ticket
  | .error e =>
      if e.isA .timeout then do
        if waited.enqueued then
          cleanUp ticket
        let elapsed ← Service.elapsedSince started
        throw (.plain (.acquireTimeout semaphore.key limit elapsed))
      else do
        if isRefusal e && waited.enqueued then
          cleanUp ticket
        throw e

theorem acquire_eq (semaphore : Semaphore τ) (limit : Option τ) :
    acquire semaphore limit = (do
      let ticket ← semaphore.newTicket
      let started ← Service.now
      let waited ← ExceptT.lift (followWithin ticket limit)
      settle semaphore limit ticket started waited) :=
  rfl

/-- How a request for a slot comes to its end when its wait is over. -/
inductive Settles (pace : Plan.Pace (Premises τ) τ) (cut : Prop) (semaphore : Semaphore τ)
    (limit : Option τ) (ticket : Ticket τ) (started : τ) (waited : Waited τ) (began : τ)
    (heard : Heard τ) (finish : τ) : Except (Failure τ) Unit → Prop where
  | granted (outcome : waited.outcome = .ok ()) :
      Settles pace cut semaphore limit ticket started waited began heard finish (.ok ())
  | unpaid {reason e : Failure τ} (outcome : waited.outcome = .error reason)
      (cleans : (onPremises (cleanUp ticket)).Lasts pace cut began heard finish (.error e)) :
      Settles pace cut semaphore limit ticket started waited began heard finish (.error e)
  | late {reason : Failure τ} {asked time : τ} {ms : Int} (outcome : waited.outcome = .error reason)
      (timeout : reason.isA .timeout = true) (shows : pace cut asked (.inr .now) time finish)
      (measured : Seconds.toMillis (time - started) = .ok ms) :
      Settles pace cut semaphore limit ticket started waited began heard finish
        (.error (.plain (.acquireTimeout semaphore.key limit ms)))
  | unmeasured {reason : Failure τ} {asked time : τ} {defect : Unmeasurable}
      (outcome : waited.outcome = .error reason) (timeout : reason.isA .timeout = true)
      (shows : pace cut asked (.inr .now) time finish)
      (unmeasured : Seconds.toMillis (time - started) = .error defect) :
      Settles pace cut semaphore limit ticket started waited began heard finish
        (.error (.ofUnmeasurable defect))
  | passed {reason : Failure τ} (outcome : waited.outcome = .error reason)
      (timely : reason.isA .timeout = false) :
      Settles pace cut semaphore limit ticket started waited began heard finish (.error reason)

/-- A clean-up that may be due is over before anything else is heard, and what it fails with takes
the place of all else. -/
theorem lasts_afterCleanUp {due : Bool} {next : Operation Queue τ Unit}
    {ended : Except (Failure τ) Unit}
    (h : (onPremises (if due then cleanUp ticket >>= fun _ => next else next)).Lasts pace cut began
      heard finish ended) :
    (∃ e, (onPremises (cleanUp ticket)).Lasts pace cut began heard finish (.error e) ∧
        ended = .error e) ∨
      ∃ between after, (onPremises next).Lasts pace cut between after finish ended := by
  split at h
  · rcases lasts_bind h with ⟨before, after, between, _, _, _, hnext⟩ | ⟨e, hfails, rfl⟩
    · exact Or.inr ⟨between, after, hnext⟩
    · exact Or.inl ⟨e, hfails, rfl⟩
  · exact Or.inr ⟨_, _, h⟩

theorem lasts_settle {started : τ} {waited : Waited τ} {ended : Except (Failure τ) Unit}
    (h : (onPremises (settle semaphore limit ticket started waited)).Lasts pace cut began heard
      finish ended) :
    Settles pace cut semaphore limit ticket started waited began heard finish ended := by
  rcases waited with ⟨enqueued, outcome⟩
  cases outcome with
  | ok _ =>
      rcases lasts_ambient h with ⟨_, rfl, _⟩
      exact .granted rfl
  | error reason =>
      unfold settle at h
      dsimp only at h
      cases htimeout : reason.isA .timeout with
      | true =>
          rw [if_pos htimeout] at h
          rcases lasts_afterCleanUp h with ⟨e, hfails, rfl⟩ | ⟨between, after, hreport⟩
          · exact .unpaid rfl hfails
          · rcases lasts_bind hreport with
              ⟨_, _, met, ms, _, hmeasure, hthrow⟩ | ⟨e, hmeasure, rfl⟩
            · rcases Plan.lasts_pure hthrow with ⟨_, rfl, rfl⟩
              rcases lasts_elapsedSince hmeasure with
                ⟨time, hshows, ⟨ms, hms, heq⟩ | ⟨defect, hdefect, heq⟩⟩
              · cases heq
                exact .late rfl htimeout hshows hms
              · cases heq
            · rcases lasts_elapsedSince hmeasure with
                ⟨time, hshows, ⟨ms, hms, heq⟩ | ⟨defect, hdefect, heq⟩⟩
              · cases heq
              · cases heq
                exact .unmeasured rfl htimeout hshows hdefect
      | false =>
          rw [if_neg (by rw [htimeout]; nofun)] at h
          rcases lasts_afterCleanUp h with ⟨e, hfails, rfl⟩ | ⟨between, after, hreport⟩
          · exact .unpaid rfl hfails
          · rcases Plan.lasts_pure hreport with ⟨_, _, rfl⟩
            exact .passed rfl htimeout

/-- The parts of a request for a slot: its ticket, the clock, its wait, and the rest. -/
theorem lasts_acquire {ended : Except (Failure τ) Unit}
    (h : (onPremises (acquire semaphore limit)).Lasts pace cut began heard finish ended) :
    ∃ id asked rest, heard = ⟨.inr .freshId, id⟩ :: rest ∧ pace cut began (.inr .freshId) id asked ∧
      ((∃ defect, (semaphore.ticketForm id).issue = .error defect ∧
          ended = .error (.invalid defect.message)) ∨
        ∃ ticket started entered waiting closing waited between,
          (semaphore.ticketForm id).issue = .ok ticket ∧
          rest = ⟨.inr .now, started⟩ :: (waiting ++ closing) ∧
          pace cut asked (.inr .now) started entered ∧
          ((followWithin ticket limit).serve serveOnPremises).Lasts pace cut entered waiting between
            waited ∧
          (onPremises (settle semaphore limit ticket started waited)).Lasts pace cut between closing
            finish ended) := by
  rw [acquire_eq] at h
  rcases lasts_bind h with ⟨before, rest, asked, ticket, rfl, hissue, hrest⟩ | ⟨e, hissue, rfl⟩
  · rcases lasts_newTicket hissue with ⟨id, rfl, hid, ⟨_, hticket, heq⟩ | ⟨defect, _, heq⟩⟩
    · cases heq
      rcases lasts_bind hrest with
        ⟨before, later, entered, started, rfl, hnow, hlater⟩ | ⟨e, hnow, rfl⟩
      · rcases lasts_ambient hnow with ⟨_, heq, rfl, hstarted⟩
        cases heq
        rcases lasts_bind hlater with
          ⟨waiting, closing, between, waited, rfl, hwaits, hsettles⟩ | ⟨e, hwaits, rfl⟩
        · rcases lasts_lift hwaits with ⟨_, heq, hfollows⟩
          cases heq
          exact ⟨id, asked, _, rfl, hid, Or.inr ⟨ticket, started, entered, waiting, closing, waited,
            between, hticket, rfl, hstarted, hfollows, hsettles⟩⟩
        · rcases lasts_lift hwaits with ⟨_, heq, _⟩
          cases heq
      · rcases lasts_ambient hnow with ⟨_, heq, _⟩
        cases heq
    · cases heq
  · rcases lasts_newTicket hissue with ⟨id, rfl, hid, ⟨_, _, heq⟩ | ⟨defect, hdefect, heq⟩⟩
    · cases heq
    · cases heq
      exact ⟨id, finish, [], rfl, hid, Or.inl ⟨defect, hdefect, rfl⟩⟩

end Cooperative
end Turnstile
