import Turnstile.Proofs.Crowd.Basic
import Turnstile.Proofs.Refusal
import Turnstile.Proofs.Site.CleanUp

/-!
# Why a request for a slot failed

A request for a slot that is refused cleans up before it ends, and then ends with the failure for
which it was refused.  If its clean-up fails, the failure of the clean-up takes the place of that
reason: a rejected request ends with an error of the store, and the interruption of a task is lost.

## Main definitions

* `User.Closes` - what the clean-up of a user has sent, and how it ended.
* `Site.Waits` - the wait of a request for a slot.
* `Site.Comes` - how a request for a slot comes to its end.

## Main statements

* `Site.reason_or_failed_cleanUp` - a refused request ends with its reason, unless its clean-up fails.
-/

namespace Turnstile

open Redis

variable {τ α β : Type} [Seconds τ]

namespace User

def Closes (user : User τ) (ticket : Ticket τ) (sent : List (Dispatch τ))
    (closing : Except (Failure τ) Unit) : Prop :=
  match user.mode with
  | .blocking => InTurn ticket sent closing
  | .cooperative => ∃ renewal removal ofExpire ofPop, Merges renewal removal sent ∧
      Abreast ticket True renewal removal ofExpire ofPop closing

/-- A request ends with the reason for which its wait failed.  Every timeout of a cooperative wait
is reported as a failure to get a slot in time, if the clock can be read. -/
def Reports (user : User τ) (limit : Option τ) (reason : Failure τ) (ended : Except (Failure τ) Unit) :
    Prop :=
  match user.mode with
  | .blocking => ended = .error reason
  | .cooperative =>
      if reason.isA .timeout then
        (∃ ms, ended = .error (.plain (.acquireTimeout user.semaphore.key limit ms))) ∨
          ∃ defect, ended = .error (.ofUnmeasurable defect)
      else ended = .error reason

end User

namespace Site

variable {others : Keyspace τ → Keyspace τ → Prop} {site site' : Site τ} {user : User τ}
  {limit : Option τ} {ticket : Ticket τ} {sent : List (Dispatch τ)}
  {ended closing : Except (Failure τ) Unit}

abbrev Runs (others : Keyspace τ → Keyspace τ → Prop) :
    Site τ → Plan (Premises τ) τ α → Site τ → Plan (Premises τ) τ α → Prop :=
  Plan.Runs (Answers others) True

/-- The wait of a request for a slot, and how it ended.  A blocking wait is taken to have made its
entry. -/
def Waits (others : Keyspace τ → Keyspace τ → Prop) (user : User τ) (ticket : Ticket τ)
    (limit : Option τ) (site site' : Site τ) (waited : Cooperative.Waited τ) : Prop :=
  match user.mode with
  | .blocking => waited.enqueued = true ∧
      Runs others site (onPremises (Blocking.wait ticket limit)) site' (.pure waited.outcome)
  | .cooperative =>
      Runs others site ((Cooperative.followWithin ticket limit).serve serveOnPremises) site'
        (.pure waited)

/-- How a request for a slot comes to its end. -/
inductive Comes (others : Keyspace τ → Keyspace τ → Prop) (user : User τ) (limit : Option τ)
    (site site' : Site τ) : Except (Failure τ) Unit → Prop where
  | unissued {e : Failure τ}
      (issues : Runs others site (onPremises user.semaphore.newTicket) site' (.pure (.error e))) :
      Comes others user limit site site' (.error e)
  | granted {ticket : Ticket τ} {site₁ : Site τ} {enqueued : Bool}
      (issues : Runs others site (onPremises user.semaphore.newTicket) site₁ (.pure (.ok ticket)))
      (waits : Waits others user ticket limit site₁ site' ⟨enqueued, .ok ()⟩) :
      Comes others user limit site site' (.ok ())
  | unpaid {ticket : Ticket τ} {site₁ : Site τ} {enqueued : Bool} {reason : Failure τ}
      {ended : Except (Failure τ) Unit}
      (issues : Runs others site (onPremises user.semaphore.newTicket) site₁ (.pure (.ok ticket)))
      (waits : Waits others user ticket limit site₁ site' ⟨enqueued, .error reason⟩)
      (free : ¬ (enqueued = true ∧ reason.Refuses user.mode))
      (reports : user.Reports limit reason ended) : Comes others user limit site site' ended
  | repaid {ticket : Ticket τ} {site₁ site₂ : Site τ} {reason : Failure τ}
      {sent : List (Dispatch τ)} {ended : Except (Failure τ) Unit}
      (issues : Runs others site (onPremises user.semaphore.newTicket) site₁ (.pure (.ok ticket)))
      (waits : Waits others user ticket limit site₁ site₂ ⟨true, .error reason⟩)
      (refuses : reason.Refuses user.mode) (sends : site'.sent = site₂.sent ++ sent)
      (closes : user.Closes ticket sent (.ok ()))
      (succeeds : ∀ dispatch ∈ sent, dispatch.succeeds = true)
      (reports : user.Reports limit reason ended) : Comes others user limit site site' ended
  | replaced {ticket : Ticket τ} {site₁ site₂ : Site τ} {reason e : Failure τ}
      {sent : List (Dispatch τ)}
      (issues : Runs others site (onPremises user.semaphore.newTicket) site₁ (.pure (.ok ticket)))
      (waits : Waits others user ticket limit site₁ site₂ ⟨true, .error reason⟩)
      (refuses : reason.Refuses user.mode) (sends : site'.sent = site₂.sent ++ sent)
      (closes : user.Closes ticket sent (.error e))
      (fails : (∃ dispatch ∈ sent, dispatch.succeeds = false) ∨
        user.mode = .cooperative ∧ e = .interrupted) :
      Comes others user limit site site' (.error e)

/-!
## Steps of a request
-/

theorem runs_ambient {r : AmbientRequest τ} {next : r.Answer τ → Plan (Premises τ) τ α} {a : α}
    (h : Runs others site (.ask (.inr r) next) site' (.pure a)) :
    ∃ answer, Runs others site (next answer) site' (.pure a) := by
  cases h with
  | step moves runs =>
      rcases Plan.moves_ask moves with ⟨answer, hanswer, rfl⟩
      cases hanswer
      exact ⟨answer, runs⟩

theorem runs_bind {action : Operation Queue τ α} {next : α → Operation Queue τ β}
    {ended : Except (Failure τ) β}
    (h : Runs others site (onPremises (action >>= next)) site' (.pure ended)) :
    (∃ site₁ a, Runs others site (onPremises action) site₁ (.pure (.ok a)) ∧
        Runs others site₁ (onPremises (next a)) site' (.pure ended)) ∨
      ∃ e, Runs others site (onPremises action) site' (.pure (.error e)) ∧ ended = .error e := by
  rw [onPremises_bind] at h
  rcases h.of_bind with ⟨site₁, first, hfirst, hrest⟩
  cases first with
  | ok a => exact Or.inl ⟨site₁, a, hfirst, hrest⟩
  | error e =>
      rcases Plan.runs_pure hrest with ⟨rfl, rfl⟩
      exact Or.inr ⟨e, hfirst, rfl⟩

theorem runs_tryCatch {action : Operation Queue τ α} {handler : Failure τ → Operation Queue τ α}
    {ended : Except (Failure τ) α}
    (h : Runs others site (onPremises (tryCatch action handler)) site' (.pure ended)) :
    (∃ a, Runs others site (onPremises action) site' (.pure (.ok a)) ∧ ended = .ok a) ∨
      ∃ site₁ e, Runs others site (onPremises action) site₁ (.pure (.error e)) ∧
        Runs others site₁ (onPremises (handler e)) site' (.pure ended) := by
  rw [onPremises_tryCatch] at h
  rcases h.of_bind with ⟨site₁, first, hfirst, hrest⟩
  cases first with
  | ok a =>
      rcases Plan.runs_pure hrest with ⟨rfl, rfl⟩
      exact Or.inl ⟨a, hfirst, rfl⟩
  | error e => exact Or.inr ⟨site₁, e, hfirst, hrest⟩

theorem runs_throw {e : Failure τ} {ended : Except (Failure τ) α}
    (h : Runs others site (onPremises (throw e)) site' (.pure ended)) :
    site' = site ∧ ended = .error e :=
  Plan.runs_pure h

theorem runs_hold (h : Runs others site (onPremises (Service.hold ticket)) site' (.pure ended)) :
    site' = site ∧ ended = .ok () := by
  rcases runs_ambient h with ⟨_, hrest⟩
  exact Plan.runs_pure hrest

theorem runs_now {first : Except (Failure τ) τ}
    (h : Runs others site (onPremises Service.now) site' (.pure first)) :
    site' = site ∧ ∃ time, first = .ok time := by
  rcases runs_ambient h with ⟨time, hrest⟩
  rcases Plan.runs_pure hrest with ⟨rfl, rfl⟩
  exact ⟨rfl, time, rfl⟩

theorem runs_lift {plan : Plan (Service Queue τ) τ α} {first : Except (Failure τ) α}
    (h : Runs others site (onPremises (ExceptT.lift plan)) site' (.pure first)) :
    ∃ a, first = .ok a ∧ Runs others site (plan.serve serveOnPremises) site' (.pure a) := by
  change Runs others site (Plan.serve _ (Plan.bind _ _)) site' _ at h
  rw [Plan.serve_bind] at h
  rcases h.of_bind with ⟨site₁, a, hfirst, hrest⟩
  rcases Plan.runs_pure hrest with ⟨rfl, rfl⟩
  exact ⟨a, rfl, hfirst⟩

theorem closes_of_runs (hmode : user.mode = .blocking ∧
      Runs others site (onPremises (Blocking.cleanUp ticket)) site' (.pure closing) ∨
    user.mode = .cooperative ∧
      Runs others site (onPremises (Cooperative.cleanUp ticket)) site' (.pure closing)) :
    ∃ sent, site'.sent = site.sent ++ sent ∧ user.Closes ticket sent closing := by
  rcases hmode with ⟨hmode, hruns⟩ | ⟨hmode, hruns⟩
  · rcases (blocking_concludes others True ticket site).of_runs hruns with
      ⟨sent, ⟨all, hmerges, hsent, _⟩, hended⟩
    rw [hmerges.eq_of_nil] at hsent
    refine ⟨sent, hsent, ?_⟩
    rw [User.Closes, hmode]
    exact hended
  · rcases (cooperative_concludes others True ticket site).of_runs hruns with
      ⟨renewal, removal, ofExpire, ofPop, ⟨sent, hmerges, hsent, _⟩, hended⟩
    refine ⟨sent, hsent, ?_⟩
    rw [User.Closes, hmode]
    exact ⟨renewal, removal, ofExpire, ofPop, hmerges, hended⟩

theorem closes_ok (h : user.Closes ticket sent (.ok ())) :
    ∀ dispatch ∈ sent, dispatch.succeeds = true := by
  unfold User.Closes at h
  split at h
  · exact (inTurn_ok_iff h).mp rfl
  · rcases h with ⟨renewal, removal, ofExpire, ofPop, hmerges, hended⟩
    generalize hok : Except.ok () = ended at hended
    cases hended with
    | parted renews removes interrupted => cases hok
    | joined renews removes =>
        rcases Cooperative.joined_ok_iff.mp hok.symm with ⟨rfl, rfl⟩
        intro dispatch hmem
        rcases hmerges.mem_iff.mp hmem with hrenewal | hremoval
        · exact (attempt_ok_iff renews).mp rfl dispatch hrenewal
        · exact (attempt_ok_iff removes).mp rfl dispatch hremoval

theorem closes_error {e : Failure τ} (h : user.Closes ticket sent (.error e)) :
    (∃ dispatch ∈ sent, dispatch.succeeds = false) ∨
      user.mode = .cooperative ∧ e = .interrupted := by
  by_cases hall : ∀ dispatch ∈ sent, dispatch.succeeds = true
  · unfold User.Closes at h
    split at h
    · cases (inTurn_ok_iff h).mpr hall
    · rename_i hmode
      rcases h with ⟨renewal, removal, ofExpire, ofPop, hmerges, hended⟩
      generalize herror : Except.error e = ended at hended
      cases hended with
      | parted renews removes interrupted =>
          cases herror
          exact Or.inr ⟨hmode, rfl⟩
      | joined renews removes =>
          have hrenewal := (attempt_ok_iff renews).mpr fun dispatch hmem =>
            hall dispatch (hmerges.mem_iff.mpr (Or.inl hmem))
          have hremoval := (attempt_ok_iff removes).mpr fun dispatch hmem =>
            hall dispatch (hmerges.mem_iff.mpr (Or.inr hmem))
          rw [Cooperative.joined_ok_iff.mpr ⟨hrenewal, hremoval⟩] at herror
          cases herror
  · exact Or.inl (by simpa using hall)

theorem reports_error {reason : Failure τ} (h : user.Reports limit reason ended) :
    ∃ e, ended = .error e := by
  unfold User.Reports at h
  split at h
  · exact ⟨_, h⟩
  · split at h
    · rcases h with ⟨ms, h⟩ | ⟨defect, h⟩
      · exact ⟨_, h⟩
      · exact ⟨_, h⟩
    · exact ⟨_, h⟩

/-- A request whose wait failed cleans up if a head is due, and reports the reason unless the clean-up
has failed. -/
theorem comes_of_error {site₁ site₂ : Site τ} {reason : Failure τ} {enqueued due : Bool}
    {cleanUp report : Operation Queue τ Unit}
    (issues : Runs others site (onPremises user.semaphore.newTicket) site₁ (.pure (.ok ticket)))
    (waits : Waits others user ticket limit site₁ site₂ ⟨enqueued, .error reason⟩)
    (hdue : due = true ↔ enqueued = true ∧ reason.Refuses user.mode)
    (hcleanUp : user.mode = .blocking ∧ cleanUp = Blocking.cleanUp ticket ∨
      user.mode = .cooperative ∧ cleanUp = Cooperative.cleanUp ticket)
    (hreport : ∀ {site site' ended}, Runs others site (onPremises report) site' (.pure ended) →
      site' = site ∧ user.Reports limit reason ended)
    (h : Runs others site₂ (onPremises (if due then cleanUp >>= fun _ => report else report)) site'
      (.pure ended)) :
    Comes others user limit site site' ended ∧ ∃ e, ended = .error e := by
  have hcloses : ∀ {site' closing}, Runs others site₂ (onPremises cleanUp) site' (.pure closing) →
      ∃ sent, site'.sent = site₂.sent ++ sent ∧ user.Closes ticket sent closing := by
    intro site' closing hruns
    rcases hcleanUp with ⟨hmode, rfl⟩ | ⟨hmode, rfl⟩
    · exact closes_of_runs (Or.inl ⟨hmode, hruns⟩)
    · exact closes_of_runs (Or.inr ⟨hmode, hruns⟩)
  cases due with
  | false =>
      rcases hreport h with ⟨rfl, hreports⟩
      have hfree : ¬ (enqueued = true ∧ reason.Refuses user.mode) := by
        rw [← hdue]
        nofun
      exact ⟨.unpaid issues waits hfree hreports, reports_error hreports⟩
  | true =>
      rcases hdue.mp rfl with ⟨rfl, refuses⟩
      rcases runs_bind h with ⟨site₃, _, hruns, hrest⟩ | ⟨e, hruns, rfl⟩
      · rcases hcloses hruns with ⟨sent, hsent, hclosing⟩
        rcases hreport hrest with ⟨rfl, hreports⟩
        exact ⟨.repaid issues waits refuses hsent hclosing (closes_ok hclosing) hreports,
          reports_error hreports⟩
      · rcases hcloses hruns with ⟨sent, hsent, hclosing⟩
        exact ⟨.replaced issues waits refuses hsent hclosing (closes_error hclosing), e, rfl⟩

/-!
## Requests of either kind
-/

theorem blocking_comes (hmode : user.mode = .blocking)
    (h : Runs others site (onPremises (Blocking.acquire user.semaphore limit)) site'
      (.pure ended)) : Comes others user limit site site' ended := by
  have hwaits : ∀ {ticket site₁ site₂ outcome},
      Runs others site₁ (onPremises (Blocking.wait ticket limit)) site₂ (.pure outcome) →
        Waits others user ticket limit site₁ site₂ ⟨true, outcome⟩ := by
    intro ticket site₁ site₂ outcome hruns
    rw [Waits, hmode]
    exact ⟨rfl, hruns⟩
  have hreport : ∀ {reason : Failure τ} {site site' ended},
      Runs others site (onPremises (throw reason)) site' (.pure ended) →
        site' = site ∧ user.Reports limit reason ended := by
    intro reason site site' ended hruns
    rw [User.Reports, hmode]
    exact runs_throw hruns
  rcases runs_bind h with ⟨site₁, ticket, issues, hrest⟩ | ⟨e, issues, rfl⟩
  · have hhandled : ∀ {site₂ site₃ reason ended},
        Runs others site₁ (onPremises (Blocking.wait ticket limit)) site₂ (.pure (.error reason)) →
        Runs others site₂ (onPremises (if Blocking.isRefusal reason then
            Blocking.cleanUp ticket >>= fun _ => throw reason else throw reason)) site₃
          (.pure ended) →
        Comes others user limit site site₃ ended ∧ ∃ e, ended = .error e := by
      intro site₂ site₃ reason ended hruns hhandler
      refine comes_of_error issues (hwaits hruns) ?_ (Or.inl ⟨hmode, rfl⟩) hreport hhandler
      simp [Failure.Refuses, hmode]
    rcases runs_bind hrest with ⟨site₂, _, hcaught, hheld⟩ | ⟨e, hcaught, rfl⟩
    · rcases runs_tryCatch hcaught with ⟨_, hgranted, _⟩ | ⟨site₃, reason, hruns, hhandler⟩
      · rcases runs_hold hheld with ⟨rfl, rfl⟩
        exact .granted issues (hwaits hgranted)
      · rcases (hhandled hruns hhandler).2 with ⟨e, he⟩
        cases he
    · rcases runs_tryCatch hcaught with ⟨_, _, he⟩ | ⟨site₃, reason, hruns, hhandler⟩
      · cases he
      · exact (hhandled hruns hhandler).1
  · exact .unissued issues

theorem runs_elapsedSince {started : τ} {first : Except (Failure τ) Int}
    (h : Runs others site (onPremises (Service.elapsedSince started)) site' (.pure first)) :
    site' = site ∧ ((∃ ms, first = .ok ms) ∨ ∃ defect, first = .error (.ofUnmeasurable defect)) := by
  rcases runs_bind h with ⟨site₁, current, hnow, hrest⟩ | ⟨e, hnow, rfl⟩
  · rcases runs_now hnow with ⟨rfl, _⟩
    split at hrest
    · rename_i ms _
      rcases Plan.runs_pure hrest with ⟨rfl, rfl⟩
      exact ⟨rfl, Or.inl ⟨ms, rfl⟩⟩
    · rename_i defect _
      rcases Plan.runs_pure hrest with ⟨rfl, rfl⟩
      exact ⟨rfl, Or.inr ⟨defect, rfl⟩⟩
  · rcases (runs_now hnow).2 with ⟨_, heq⟩
    cases heq

theorem runs_late {key : String} {started : τ}
    (h : Runs others site (onPremises (do
        let elapsed ← Service.elapsedSince started
        throw (.plain (.acquireTimeout key limit elapsed)) : Operation Queue τ Unit)) site'
      (.pure ended)) :
    site' = site ∧ ((∃ ms, ended = .error (.plain (.acquireTimeout key limit ms))) ∨
      ∃ defect, ended = .error (.ofUnmeasurable defect)) := by
  rcases runs_bind h with ⟨site₁, ms, helapsed, hrest⟩ | ⟨e, helapsed, rfl⟩
  · rcases runs_elapsedSince helapsed with ⟨rfl, _⟩
    rcases runs_throw hrest with ⟨rfl, rfl⟩
    exact ⟨rfl, Or.inl ⟨ms, rfl⟩⟩
  · rcases runs_elapsedSince helapsed with ⟨rfl, ⟨_, heq⟩ | ⟨defect, heq⟩⟩
    · cases heq
    · cases heq
      exact ⟨rfl, Or.inr ⟨defect, rfl⟩⟩

theorem cooperative_comes (hmode : user.mode = .cooperative)
    (h : Runs others site (onPremises (Cooperative.acquire user.semaphore limit)) site'
      (.pure ended)) : Comes others user limit site site' ended := by
  have hwaits : ∀ {ticket site₁ site₂ waited},
      Runs others site₁ ((Cooperative.followWithin ticket limit).serve serveOnPremises) site₂
          (.pure waited) → Waits others user ticket limit site₁ site₂ waited := by
    intro ticket site₁ site₂ waited hruns
    rw [Waits, hmode]
    exact hruns
  rcases runs_bind h with ⟨site₁, ticket, issues, hrest⟩ | ⟨e, issues, rfl⟩
  · rcases runs_bind hrest with ⟨site₁, started, hnow, hstarted⟩ | ⟨e, hnow, rfl⟩
    · rcases runs_now hnow with ⟨rfl, _⟩
      rcases runs_bind hstarted with ⟨site₂, waited, hlift, hwaited⟩ | ⟨e, hlift, rfl⟩
      · rcases runs_lift hlift with ⟨_, heq, hruns⟩
        cases heq
        rcases waited with ⟨enqueued, outcome⟩
        cases outcome with
        | ok _ =>
            rcases runs_hold hwaited with ⟨rfl, rfl⟩
            exact .granted issues (hwaits hruns)
        | error reason =>
            dsimp only at hwaited
            split at hwaited
            · rename_i htimeout
              refine (comes_of_error issues (hwaits hruns) ?_ (Or.inr ⟨hmode, rfl⟩) ?_ hwaited).1
              · simp [Failure.Refuses, hmode, htimeout]
              · intro site site' ended hlate
                rw [User.Reports, hmode]
                simp only [htimeout]
                exact runs_late hlate
            · rename_i htimeout
              refine (comes_of_error issues (hwaits hruns) ?_ (Or.inr ⟨hmode, rfl⟩) ?_ hwaited).1
              · simp [Failure.Refuses, hmode, htimeout, and_comm]
              · intro site site' ended hthrow
                rw [User.Reports, hmode]
                simp only [htimeout]
                exact runs_throw hthrow
      · rcases runs_lift hlift with ⟨_, heq, _⟩
        cases heq
    · rcases (runs_now hnow).2 with ⟨_, heq⟩
      cases heq
  · exact .unissued issues

/-- A request for a slot that is refused, and has made its entry, cleans up.  It ends with the reason
for which it was refused if all that its clean-up sent has succeeded, and else with the failure of
its clean-up. -/
theorem reason_or_failed_cleanUp
    (h : Runs others site (onPremises (user.acquire limit)) site' (.pure ended)) :
    Comes others user limit site site' ended := by
  unfold User.acquire at h
  split at h
  · rename_i hmode
    exact blocking_comes hmode h
  · rename_i hmode
    exact cooperative_comes hmode h

/-!
## A server that goes away
-/

section Reaches

variable {site₁ : Site τ} {last : Plan (Premises τ) τ α} {there : Site τ → Prop}

theorem exists_runs_ask {r : (Premises τ).Request} {answer : (Premises τ).Answer r}
    {next : (Premises τ).Answer r → Plan (Premises τ) τ α}
    (hanswers : Answers others site r answer site₁)
    (h : ∃ site', Runs others site₁ (next answer) site' last ∧ there site') :
    ∃ site', Runs others site (.ask r next) site' last ∧ there site' := by
  rcases h with ⟨site', hruns, hthere⟩
  exact ⟨site', .step (.hears (.ask r next answer) hanswers) hruns, hthere⟩

theorem exists_runs_unroll {σ β : Type} {step : σ → Plan (Premises τ) τ (σ ⊕ β)} {start : σ}
    {next : β → Plan (Premises τ) τ α}
    (h : ∃ site', Runs others site
      ((step start).bind (Sum.elim (fun s => .iterate step s next) next)) site' last ∧ there site') :
    ∃ site', Runs others site (.iterate step start next) site' last ∧ there site' := by
  rcases h with ⟨site', hruns, hthere⟩
  exact ⟨site', .step (.turn (.unroll step start next)) hruns, hthere⟩

end Reaches

def unreachable : Failure Float :=
  .semaphore (.storeConnection Scene.booth.endpoint ClientError.refused.message)
    (some (.client .refused))

/-- A third user of a booth that is held and waited for is rejected.  By then its server cannot be
reached any more, and that is what the user is told instead. -/
theorem reason_or_failed_cleanUp_of_unreachable : ∃ site,
    Runs (fun _ _ => False) ⟨Scene.boothKeys, []⟩
        (onPremises (User.acquire ⟨.blocking, Scene.booth, []⟩ none)) site
        (.pure (.error unreachable)) ∧
      site.sent.map Dispatch.command =
        [.ping, .rpush Scene.booth.queueKey "newcomer", .ping] ∧
      Comes (fun _ _ => False) ⟨.blocking, Scene.booth, []⟩ none ⟨Scene.boothKeys, []⟩ site
        (.error unreachable) := by
  rcases Scene.booth.exists_issue (show "newcomer" ≠ "" by decide) with ⟨ticket, hticket⟩
  have hform := TicketForm.toTicketForm_of_issue hticket
  have hendpoint : ticket.endpoint = Scene.booth.endpoint := congrArg TicketForm.endpoint hform
  have hkey : ticket.queueKey = Scene.booth.queueKey := congrArg TicketForm.queueKey hform
  have hid : ticket.id = "newcomer" := congrArg TicketForm.id hform
  have hverdict : ticket.verdict ((3 : Nat) - 1) = .rejected := by
    rw [hform]
    decide
  have hpush : Keyspace.Executed (fun _ => True) Scene.boothKeys (.rpush ticket.queueKey ticket.id)
      true (.ok (3 : Nat)) (Scene.boothKeys.run false 0 (.rpush ticket.queueKey ticket.id)).2 := by
    have hreply : (Scene.boothKeys.run false 0 (.rpush ticket.queueKey ticket.id)).1.reply =
        .ok (3 : Nat) := by
      rw [hkey]
      exact Scene.boothKeys_lists.rpush_reply _
    rw [← hreply]
    exact .answered false 0
  have hruns : ∃ site, Runs (fun _ _ => False) ⟨Scene.boothKeys, []⟩
      (onPremises (User.acquire ⟨.blocking, Scene.booth, []⟩ none)) site
        (.pure (.error unreachable)) ∧
      site.sent.map Dispatch.command =
        [.ping, .rpush Scene.booth.queueKey "newcomer", .ping] := by
    let client : Client := ⟨0, Scene.booth.endpoint, {}⟩
    apply exists_runs_ask (.ambient .freshId "newcomer")
    dsimp only [Plan.bind, Function.comp, ExceptT.bindCont]
    rw [hticket]
    apply exists_runs_ask (.dial ticket.endpoint client)
    apply exists_runs_ask (.call client (Or.inl rfl) (.answered false 0))
    apply exists_runs_ask (.ambient .now (0 : Float))
    apply exists_runs_ask (.call client (Or.inl rfl) hpush)
    apply exists_runs_ask (.ambient (.record .blocking (.entered ticket.queueKey 2)) ())
    apply exists_runs_unroll
    unfold Blocking.look
    dsimp only
    rw [hverdict]
    -- The wait is over, and the server goes away before the clean-up.
    apply exists_runs_ask (.hangUp client)
    apply exists_runs_ask (.dial ticket.endpoint client)
    apply exists_runs_ask (.call client (Or.inl rfl) (.refused (e := .client .refused) trivial))
    apply exists_runs_ask (.hangUp client)
    rw [unreachable, ← hendpoint, ← hkey, ← hid]
    exact ⟨_, .refl _ _, rfl⟩
  rcases hruns with ⟨site, hruns, hsent⟩
  exact ⟨site, hruns, hsent, reason_or_failed_cleanUp hruns⟩

end Site
end Turnstile
