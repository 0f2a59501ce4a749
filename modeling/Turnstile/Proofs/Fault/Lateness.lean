import Turnstile.Proofs.Exact.Basic
import Turnstile.Proofs.Fault.Basic
import Turnstile.Proofs.Site.CleanUp

/-!
# Timeouts of a request for a slot

A cooperative request for a slot takes every timeout for that of its own limit.  A wait that has
come to its limit ends with a timeout.  But so does a wait in which a command met with a timeout
that is no error of the client, since such a failure passes unchanged.  A request for a slot that
reports a timeout may therefore have been made without any limit.

## Main definitions

* `timedOut` - whether an exchange was answered with a timeout.
* `Onward` - a pace at which time goes on, and at which the clock shows it.

## Main statements

* `Cooperative.late_or_timedOut` - when a request for a slot reports that it was not granted in
  time.
-/

namespace Turnstile

open Redis

variable {α β : Type}

/-!
## Time
-/

/-- Time goes on, the clock shows it, no identity is empty, and no command fails in the way in which
a request for a slot is refused. -/
structure Onward (pace : Plan.Pace (Premises ℚ) ℚ) : Prop where
  onward : ∀ {cut began r answer finish}, pace cut began r answer finish → began ≤ finish
  names : ∀ {cut began id finish}, pace cut began (.inr .freshId) id finish → id ≠ ""
  shows : ∀ {cut} {began time finish : ℚ}, pace cut began (.inr .now) time finish →
    began ≤ time ∧ time ≤ finish
  noRefusal : ∀ {cut began client command e finish},
    pace cut began (.inl (.call client command)) (.error e) finish → Blocking.isRefusal e = false

theorem le_later (a b : ℚ) : a ≤ Seconds.later a b := by
  unfold Seconds.later
  split
  · rename_i hlt
    exact hlt.le
  · exact le_rfl

variable {pace : Plan.Pace (Premises ℚ) ℚ} {cut : Prop} {began finish : ℚ} {heard : Heard ℚ}
  {ticket : Ticket ℚ} {semaphore : Semaphore ℚ} {limit : Option ℚ}

theorem Plan.Lasts.le
    (honward : ∀ {cut began r answer finish}, pace cut began r answer finish → began ≤ finish)
    {plan : Plan (Premises ℚ) ℚ α} {a : α} (h : plan.Lasts pace cut began heard finish a) :
    began ≤ finish := by
  induction h with
  | ended cut time a => exact le_rfl
  | asks answers rest ih => exact (honward answers).trans ih
  | unroll rest ih => exact ih
  | joined ofLeft ofRight rest ihLeft ihRight ih => exact (ihLeft.trans (le_later _ _)).trans ih
  | parted interrupted ofLeft ofRight rest ihLeft ihRight ih =>
      exact (ihLeft.trans (le_later _ _)).trans ih
  | late passed rest ih => exact ih
  | inTime left ofBody rest ihBody ih => exact ihBody.trans ih
  | expired left ofBody passed rest ihBody ih => exact ihBody.trans ih
  | interrupted interrupted left ofBody rest ihBody ih => exact ihBody.trans ih
  | withdrawn interrupted left rest ih => exact ih

theorem Onward.le (hpace : Onward pace) {plan : Plan (Premises ℚ) ℚ α} {a : α}
    (h : plan.Lasts pace cut began heard finish a) : began ≤ finish :=
  h.le hpace.onward

/-!
## Exchanges that timed out
-/

def timesOut {τ α : Type} : Except (Failure τ) α → Bool
  | .ok _ => false
  | .error e => e.isA .timeout

def timedOut : Plan.Exchange (Premises ℚ) → Bool
  | ⟨.inl (.call _ _), reply⟩ => timesOut (τ := ℚ) reply
  | ⟨.inr (.estimate ..), (reply : Except (Failure ℚ) ℚ)⟩ => timesOut reply
  | ⟨.inr (.sleep _), (reply : Except (Failure ℚ) Unit)⟩ => timesOut reply
  | ⟨.inr (.announce _), (reply : Except (Failure ℚ) Unit)⟩ => timesOut reply
  | _ => false

/-- A failure is a timeout just when it is one as a failure of the store.  A timeout of the client
is none. -/
theorem isA_timeout_asStoreFailure (label command key : String) (e : Failure ℚ) :
    (asStoreFailure label command key e).isA .timeout = e.isA .timeout := by
  cases e with
  | client error =>
      dsimp only [asStoreFailure]
      cases error.kind.family <;> rfl
  | _ => rfl

def lateness : Plan.Terms (Premises ℚ) Bool :=
  .tally (fun late exchange => late || timedOut exchange) fun _ => True

theorem foldl_timedOut (heard : Heard ℚ) (late : Bool) :
    heard.foldl (fun late exchange => late || timedOut exchange) late =
      (late || heard.any timedOut) := by
  induction heard generalizing late with
  | nil => rw [List.foldl_nil, List.any_nil, Bool.or_false]
  | cons exchange heard ih => rw [List.foldl_cons, ih, List.any_cons, Bool.or_assoc]

/-- An operation goes on as long as nothing has timed out.  Whatever it fails with is a timeout just
when something has. -/
abbrev Tells (operation : Operation Queue ℚ α) : Prop :=
  Action.Keeps serveOnPremises operation lateness false (fun late _ => late = false)
    fun late e => late = e.isA .timeout

theorem tells_bind {action : Operation Queue ℚ α} {next : α → Operation Queue ℚ β}
    (h : Tells action) (hnext : ∀ a, Tells (next a)) : Tells (action >>= next) := by
  apply Action.keeps_bind
  apply h.mono
  · rintro late a rfl
    exact hnext a
  · exact fun _ _ he => he

theorem tells_pure (a : α) : Tells (pure a) :=
  Action.keeps_pure rfl

theorem tells_throw {e : Failure ℚ} (h : e.isA .timeout = false) :
    Tells (throw e : Operation Queue ℚ α) :=
  Action.keeps_throw h.symm

theorem meets_close_late {queue : Queue} {late : Bool} {post : Bool → Unit → Prop}
    (h : post late ()) :
    ((Service.close queue).serve serveOnPremises).Meets lateness late post := by
  apply Turnstile.meets_close
  · intro _ _
    show post (late || false) ()
    rw [Bool.or_false]
    exact h
  · exact h

theorem ends_of_call {client : Client} {command : Command} {label key : String}
    (reply : Except (Failure ℚ) command.Reply) :
    Action.Ends (fun late _ => late = false)
      (fun late e => late = (asStoreFailure label command.verb.name key e).isA .timeout)
      (false || timedOut ⟨.inl (.call client command), reply⟩) reply := by
  cases reply with
  | ok a => rfl
  | error e =>
      show _ = _
      rw [isA_timeout_asStoreFailure]
      rfl

theorem tells_connect (endpoint key : String) : Tells (Service.connect endpoint key) := by
  apply keeps_connect
  intro client _ (reply : Except (Failure ℚ) Unit) _
  cases reply with
  | ok _ => exact rfl
  | error e =>
      have he : (false || false || timedOut ⟨.inl (.call client .ping), Except.error e⟩) =
          (asStoreFailure endpoint "PING" key e).isA .timeout := by
        rw [isA_timeout_asStoreFailure]
        rfl
      constructor
      · intro _ _
        show (_ || false) = _
        rw [Bool.or_false]
        exact he
      · exact he

theorem tells_push (queue : Queue) (id : String) : Tells (Service.push queue id) :=
  keeps_push fun reply _ => ends_of_call reply

theorem tells_position (queue : Queue) (id : String) : Tells (Service.position queue id) :=
  keeps_position fun reply _ => ends_of_call reply

theorem tells_estimate (position capacity : Int) (base : ℚ) :
    Tells (Service.estimate position capacity base) := by
  apply meets_ambient
  intro (reply : Except (Failure ℚ) ℚ) _
  cases reply <;> rfl

theorem tells_sleep (duration : ℚ) : Tells (Service.sleep duration) := by
  apply meets_ambient
  intro (reply : Except (Failure ℚ) Unit) _
  cases reply <;> rfl

theorem tells_record (mode : Mode) (entry : Entry ℚ) : Tells (Service.record mode entry) :=
  Action.keeps_lift (meets_ambient fun _ _ => rfl)

theorem tells_elapsedSince (started : ℚ) : Tells (Service.elapsedSince started) := by
  apply tells_bind
  · exact Action.keeps_lift (meets_ambient fun _ _ => rfl)
  · exact fun time => tells_pure _

namespace Cooperative

theorem tells_look (queue : Queue) (ticket : Ticket ℚ) (started : ℚ) (position : Int) :
    Tells (look queue ticket started position) := by
  unfold look
  cases ticket.verdict position with
  | admitted =>
      apply tells_bind (tells_elapsedSince started)
      intro elapsed
      exact tells_bind (tells_record _ _) fun _ => tells_pure _
  | rejected => exact tells_bind (tells_record _ _) fun _ => tells_throw rfl
  | waiting =>
      apply tells_bind (tells_estimate _ _ _)
      intro duration
      apply tells_bind (tells_record _ _)
      intro _
      apply tells_bind (tells_sleep duration)
      intro _
      apply tells_bind (tells_position queue ticket.id)
      intro rank
      have hmoved : Tells (do
          Service.record .cooperative (.moved (positionOfRank rank))
          pure (.inl (positionOfRank rank) : Int ⊕ Unit)) :=
        tells_bind (tells_record _ _) fun _ => tells_pure _
      dsimp only
      split
      · exact tells_bind (tells_record _ _) fun _ => hmoved
      · exact hmoved

/-- A wait on its own ends with a timeout just when something has timed out. -/
theorem follow_tells :
    ((follow ticket false).serve serveOnPremises).Meets lateness false
      fun late waited => late = timesOut waited.outcome := by
  apply Action.meets_run
  apply (tells_connect ticket.endpoint ticket.queueKey).mono
  · rintro _ queue rfl
    apply Action.meets_serve_bind
    apply meets_ambient
    intro started _
    apply Action.meets_run
    apply (tells_push queue ticket.id).mono
    · rintro _ length rfl
      apply Action.meets_run
      have hbody : Tells (do
          Service.record .cooperative (.entered ticket.queueKey (length - 1))
          Action.repeatFrom (length - 1 : Int) (look queue ticket started)) := by
        apply tells_bind (tells_record _ _)
        intro _
        apply Action.keeps_repeatFrom (fun late _ => late = false) rfl
        rintro _ position rfl
        apply (tells_look queue ticket started position).mono
        · intro late result hlate
          cases result <;> exact hlate
        · exact fun _ _ he => he
      apply hbody.mono
      · intro late _ hlate
        apply Action.meets_serve_bind
        exact meets_close_late hlate
      · intro late e hlate
        apply Action.meets_serve_bind
        exact meets_close_late hlate
    · intro late e hlate
      apply Action.meets_serve_bind
      exact meets_close_late hlate
  · exact fun late e hlate => hlate

theorem any_timedOut_of_lasts {waited : Waited ℚ}
    (h : ((follow ticket false).serve serveOnPremises).Lasts pace cut began heard finish waited) :
    heard.any timedOut = timesOut waited.outcome := by
  have hlate := h.of_meets (serve_solo (follow_solo ticket false)) follow_tells fun _ _ _ => trivial
  rw [foldl_timedOut] at hlate
  exact hlate

/-!
## Clean-ups
-/

/-- Whether a command was met with anything but the refusal of a request for a slot. -/
def Unrefused (exchange : Plan.Exchange (Premises ℚ)) : Prop :=
  ∀ client command e, exchange = ⟨.inl (.call client command), Except.error e⟩ →
    Blocking.isRefusal e = false

def legTerms : Plan.Terms (Premises ℚ) Unit :=
  .tally (fun φ _ => φ) Unrefused

theorem connect_unrefused {endpoint key : String} :
    Action.Keeps serveOnPremises (Service.connect endpoint key) legTerms () (fun _ _ => True)
      fun _ e => Blocking.isRefusal e = false := by
  apply keeps_connect
  intro client _ (reply : Except (Failure ℚ) Unit) hreply
  cases reply with
  | ok _ => trivial
  | error e =>
      have he := Blocking.isRefusal_asStoreFailure (hreply client .ping e rfl) endpoint "PING" key
      exact ⟨fun _ _ => he, he⟩

theorem popHead_unrefused :
    Action.Keeps serveOnPremises (popHead ticket) legTerms () (fun _ _ => True)
      fun _ e => Blocking.isRefusal e = false := by
  apply Action.keeps_bind
  apply connect_unrefused.mono
  · intro _ queue _
    apply Action.keeps_bind
    apply Action.keeps_ensuring
    apply keeps_pop
    intro (reply : Except (Failure ℚ) (Option (List Item))) hreply
    cases reply with
    | ok popped =>
        constructor
        · exact fun ids => Turnstile.meets_close (fun _ _ => fun _ _ => trivial) fun _ _ => trivial
        · exact Turnstile.meets_close (fun _ _ => rfl) rfl
    | error e =>
        have he := Blocking.isRefusal_asStoreFailure (hreply _ _ e rfl) queue.label "LPOP" queue.key
        exact Turnstile.meets_close (fun _ _ => he) he
  · exact fun _ _ he => he

theorem renewExpiry_unrefused :
    Action.Keeps serveOnPremises (renewExpiry ticket) legTerms () (fun _ _ => True)
      fun _ e => Blocking.isRefusal e = false := by
  apply Action.keeps_bind
  apply connect_unrefused.mono
  · intro _ queue _
    apply Action.keeps_bind
    apply Action.keeps_ensuring
    apply keeps_expire
    intro (reply : Except (Failure ℚ) Bool) hreply
    cases reply with
    | ok held => exact Turnstile.meets_close (fun _ _ => fun _ _ => trivial) fun _ _ => trivial
    | error e =>
        have he := Blocking.isRefusal_asStoreFailure (hreply _ _ e rfl) queue.label "EXPIRE"
          queue.key
        exact Turnstile.meets_close (fun _ _ => he) he
  · exact fun _ _ he => he

/-- A clean-up does not fail in the way in which a request for a slot is refused. -/
theorem cleanUp_unrefused (hpace : Onward pace) {e : Failure ℚ}
    (h : (onPremises (cleanUp ticket)).Lasts pace cut began heard finish (.error e)) :
    Blocking.isRefusal e = false := by
  have hleg : ∀ {leg : Operation Queue ℚ Unit} {heard finish ended}, leg.run.Straight →
      Action.Keeps serveOnPremises leg legTerms () (fun _ _ => True)
        (fun _ e => Blocking.isRefusal e = false) →
      (onPremises leg).Lasts pace cut began heard finish ended →
      Action.Ends (fun _ _ => True) (fun _ e => Blocking.isRefusal e = false) () ended := by
    intro leg heard finish ended hstraight hkeeps hlasts
    apply hlasts.of_meets (serve_solo hstraight.solo) hkeeps
    rintro _ _ ⟨asked, met, hanswer⟩ client command e rfl
    exact hpace.noRefusal hanswer
  have hofLeg : ∀ {e : Failure ℚ} (name : String), Blocking.isRefusal e = false →
      Blocking.isRefusal (e.ofLeg name) = false := by
    intro e name he
    cases e <;> exact he
  rcases lasts_cleanUp h with
    ⟨_, _, _, _, ofExpire, ofPop, rfl, hrenewal, hremoval, hended | ⟨_, heq⟩⟩
  · have hexpire := hleg (Tidy.renewExpiry_straight ticket) renewExpiry_unrefused hrenewal
    have hpop := hleg (Tidy.popHead_straight ticket) popHead_unrefused hremoval
    cases ofExpire with
    | error e' =>
        rw [joined_error] at hended
        cases hended
        exact hofLeg "expire" hexpire
    | ok _ =>
        cases ofPop with
        | error e' =>
            rw [joined_error] at hended
            cases hended
            exact hofLeg "lpop" hpop
        | ok _ => cases hended
  · cases heq
    rfl

/-!
## Requests for a slot
-/

theorem timesOut_expired {waited : Waited ℚ} (h : timesOut waited.outcome = true) :
    timesOut (limited .expired (some waited)).outcome = true := by
  rcases waited with ⟨enqueued, outcome⟩
  cases outcome with
  | ok _ => cases h
  | error e => cases e <;> first | exact h | rfl

theorem timesOut_of_any {waited : Waited ℚ}
    (h : ((followWithin ticket limit).serve serveOnPremises).Lasts pace cut began heard finish
      waited) (hcut : ¬ cut) (hany : heard.any timedOut = true) :
    timesOut waited.outcome = true := by
  rcases lasts_followWithin h with
    halone | ⟨_, _, _, _, rfl⟩ | ⟨_, _, _, _, halone, rfl⟩ | ⟨hinterrupted, _⟩
  · rw [← any_timedOut_of_lasts halone]
    exact hany
  · rfl
  · apply timesOut_expired
    rw [← any_timedOut_of_lasts halone]
    exact hany
  · exact absurd hinterrupted hcut

/-- A wait that ends with a timeout has come to its limit, or something has timed out in it. -/
theorem any_or_limit_of_timesOut (hpace : Onward pace) {waited : Waited ℚ}
    (h : ((followWithin ticket limit).serve serveOnPremises).Lasts pace cut began heard finish
      waited) (htimesOut : timesOut waited.outcome = true) :
    heard.any timedOut = true ∨
      ∃ duration, limit = some duration ∧ max duration 0 ≤ finish - began := by
  have honward : 0 ≤ finish - began := sub_nonneg.mpr (hpace.le h)
  rcases lasts_followWithin h with
    halone | ⟨duration, rfl, hpassed, _⟩ | ⟨duration, _, rfl, hpassed, _⟩ | ⟨_, hinterrupted⟩
  · left
    rw [any_timedOut_of_lasts halone]
    exact htimesOut
  · right
    refine ⟨duration, rfl, ?_⟩
    rw [max_eq_right hpassed]
    exact honward
  · right
    exact ⟨duration, rfl, max_le (le_sub_iff_add_le'.mpr hpassed) honward⟩
  · rw [hinterrupted] at htimesOut
    cases htimesOut

theorem timesOut_of_settles (hpace : Onward pace) {started : ℚ} {waited : Waited ℚ} {key : String}
    {timeout : Option ℚ} {ms : Int} {cause : Option Cause}
    (h : Settles pace cut semaphore limit ticket started waited began heard finish
      (.error (.semaphore (.acquireTimeout key timeout ms) cause))) :
    key = semaphore.key ∧ timeout = limit ∧ timesOut waited.outcome = true := by
  generalize hended : Except.error _ = ended at h
  cases h with
  | granted outcome => cases hended
  | unpaid outcome cleans =>
      cases hended
      cases cleanUp_unrefused hpace cleans
  | late outcome timeout shows measured =>
      cases hended
      refine ⟨rfl, rfl, ?_⟩
      rw [outcome]
      exact timeout
  | unmeasured outcome timeout shows unmeasured => cases unmeasured
  | passed outcome timely =>
      cases hended
      cases timely

theorem settles_of_timesOut {started : ℚ} {waited : Waited ℚ} {ended : Except (Failure ℚ) Unit}
    (h : Settles pace cut semaphore limit ticket started waited began heard finish ended)
    (htimesOut : timesOut waited.outcome = true) :
    (∃ ms, ended = .error (.plain (.acquireTimeout semaphore.key limit ms))) ∨
      ∃ e, (onPremises (cleanUp ticket)).Lasts pace cut began heard finish (.error e) ∧
        ended = .error e := by
  cases h with
  | granted outcome =>
      rw [outcome] at htimesOut
      cases htimesOut
  | unpaid outcome cleans => exact Or.inr ⟨_, cleans, rfl⟩
  | late outcome timeout shows measured => exact Or.inl ⟨_, rfl⟩
  | unmeasured outcome timeout shows unmeasured => cases unmeasured
  | passed outcome timely =>
      rw [outcome] at htimesOut
      exact absurd (htimesOut.symm.trans timely) Bool.noConfusion

/-- A request for a slot that has ended had a ticket, looked at the clock, waited, and settled.  If
it reports that it was not granted in time, then its limit has passed, or something has timed out in
its wait.  And if something has timed out in its wait, then it reports just that, whether it had
a limit or not, unless its clean-up fails or it is interrupted. -/
theorem late_or_timedOut (hpace : Onward pace) {ended : Except (Failure ℚ) Unit}
    (h : (onPremises (acquire semaphore limit)).Lasts pace cut began heard finish ended) :
    ∃ id ticket, ∃ started entered : ℚ, ∃ waiting waited between closing,
      heard = ⟨.inr .freshId, id⟩ :: ⟨.inr .now, started⟩ :: (waiting ++ closing) ∧
      ((followWithin ticket limit).serve serveOnPremises).Lasts pace cut entered waiting between
        waited ∧
      (∀ key timeout ms cause,
        ended = .error (.semaphore (.acquireTimeout key timeout ms) cause) →
          key = semaphore.key ∧ timeout = limit ∧
            (waiting.any timedOut = true ∨
              ∃ duration, limit = some duration ∧ max duration 0 ≤ finish - started)) ∧
      (waiting.any timedOut = true → ¬ cut →
        (∃ ms, ended = .error (.plain (.acquireTimeout semaphore.key limit ms))) ∨
          ∃ e, (onPremises (cleanUp ticket)).Lasts pace cut between closing finish (.error e) ∧
            ended = .error e) := by
  rcases lasts_acquire h with ⟨id, asked, rest, rfl, hid, hissue⟩
  rcases semaphore.exists_issue (hpace.names hid) with ⟨issued, hissued⟩
  rcases hissue with ⟨defect, hdefect, _⟩ |
    ⟨ticket, (started : ℚ), entered, waiting, closing, waited, between, _, rfl, hnow, hwaits,
      hsettles⟩
  · rw [hissued] at hdefect
    cases hdefect
  · have hentered : started ≤ entered := (hpace.shows hnow).2
    have hfinish := hpace.le hsettles
    have hsettled := lasts_settle hsettles
    refine ⟨id, ticket, started, entered, waiting, waited, between, closing, rfl, hwaits, ?_, ?_⟩
    · rintro key timeout ms cause rfl
      rcases timesOut_of_settles hpace hsettled with ⟨hkey, hlimit, htimesOut⟩
      refine ⟨hkey, hlimit, ?_⟩
      rcases any_or_limit_of_timesOut hpace hwaits htimesOut with hany | ⟨duration, hsome, hpassed⟩
      · exact Or.inl hany
      · exact Or.inr ⟨duration, hsome, hpassed.trans (sub_le_sub hfinish hentered)⟩
    · intro hany hcut
      exact settles_of_timesOut hsettled (timesOut_of_any hwaits hcut hany)

/-!
## A request that was never late
-/

def atOnce : Plan.Pace (Premises ℚ) ℚ :=
  fun _ began r answer finish => finish = began ∧
    match r, answer with
    | .inl (.call ..), .error e => Blocking.isRefusal (τ := ℚ) e = false
    | .inr .now, time => time = began
    | .inr .freshId, id => id ≠ ""
    | _, _ => True

theorem onward_atOnce : Onward atOnce where
  onward h := h.1.ge
  names h := h.2
  shows {_ began time finish} h := by
    have htime : time = began := h.2
    exact ⟨htime.ge, htime.le.trans h.1.ge⟩
  noRefusal h := h.2

def kiosk : Semaphore ℚ where
  key := "kiosk"
  sleepDuration := 1 / 10
  sound := by decide +kernel

/-- Somebody asks for a slot without any limit, and the connection times out as the entry is made.
No time has passed, and what is reported is that the slot was not granted in time. -/
theorem late_or_timedOut_at_kiosk : ∃ heard,
    (onPremises (acquire kiosk none)).Lasts atOnce False 0 heard 0
        (.error (.plain (.acquireTimeout "kiosk" none 0))) ∧
      ∃ id, ∃ started : ℚ, ∃ waiting closing,
        heard = ⟨.inr .freshId, id⟩ :: ⟨.inr .now, started⟩ :: (waiting ++ closing) ∧
          waiting.any timedOut = true := by
  have hid : "a" ≠ "" := by decide
  have hms : nearest ((0 - 0) * 1000) = 0 := by decide +kernel
  rcases kiosk.exists_issue hid with ⟨ticket, hticket⟩
  let client : Client := ⟨0, ticket.endpoint, {}⟩
  have hruns : ∃ heard, (onPremises (acquire kiosk none)).Lasts atOnce False 0 heard 0
      (.error (.plain (.acquireTimeout "kiosk" none (nearest ((0 - 0) * 1000))))) := by
    apply Exists.intro
    apply Plan.Lasts.asks (show atOnce False 0 (.inr .freshId) "a" 0 from ⟨rfl, hid⟩)
    dsimp only [Plan.bind, Function.comp, ExceptT.bindCont]
    rw [hticket]
    apply Plan.Lasts.asks (show atOnce False 0 (.inr .now) (0 : ℚ) 0 from ⟨rfl, rfl⟩)
    apply Plan.Lasts.asks (show atOnce False 0 (.inl (.dial ticket.endpoint)) client 0 from
      ⟨rfl, trivial⟩)
    apply Plan.Lasts.asks (show atOnce False 0 (.inl (.call client .ping)) (.ok ()) 0 from
      ⟨rfl, trivial⟩)
    apply Plan.Lasts.asks (show atOnce False 0 (.inr .now) (0 : ℚ) 0 from ⟨rfl, rfl⟩)
    apply Plan.Lasts.asks (show atOnce False 0
      (.inl (.call client (.rpush ticket.queueKey ticket.id)))
      (.error (.system .timeout "timed out")) 0 from ⟨rfl, rfl⟩)
    apply Plan.Lasts.asks (show atOnce False 0 (.inl (.hangUp client)) () 0 from ⟨rfl, trivial⟩)
    apply Plan.Lasts.asks (show atOnce False 0 (.inr .now) (0 : ℚ) 0 from ⟨rfl, rfl⟩)
    exact .ended _ _ _
  rcases hruns with ⟨heard, hruns⟩
  rw [hms] at hruns
  refine ⟨heard, hruns, ?_⟩
  rcases late_or_timedOut onward_atOnce hruns with
    ⟨id, _, started, _, waiting, _, _, closing, hheard, _, hlate, _⟩
  rcases (hlate _ _ _ _ rfl).2.2 with hany | ⟨duration, hnone, _⟩
  · exact ⟨id, started, waiting, closing, hheard, hany⟩
  · cases hnone

end Cooperative
end Turnstile
