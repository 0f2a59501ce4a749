import Turnstile.Proofs.Exact.Limit
import Turnstile.Proofs.Fault.Lateness

/-!
# Which failure of a clean-up is raised

A clean-up removes a head and renews an expiry, and both can fail.  A blocking clean-up does one
after the other, so that the failure of the removal, which it raises, is the first one.

The legs of a cooperative clean-up begin together and go on side by side.  It looks at how they
ended when both are over, and at the renewal before the removal.  If both have failed it raises the
failure of the renewal, whichever leg was over first.

## Main definitions

* `FirstOf` - one of two failures, before which the other one did not come.
* `Blocking.Cleans` - how a blocking clean-up comes to its end.

## Main statements

* `first_failure_raised_iff` - when a clean-up raises the failure that came first.
-/

namespace Turnstile

open Redis

/-- One of two failures that came at some times, and not after the other one. -/
def FirstOf {ε : Type} (time time' : ℚ) (e e' raised : ε) : Prop :=
  raised = e ∧ time ≤ time' ∨ raised = e' ∧ time' ≤ time

theorem firstOf_left_iff {ε : Type} {time time' : ℚ} {e e' : ε} :
    FirstOf time time' e e' e ↔ time ≤ time' ∨ e = e' := by
  constructor
  · rintro (⟨_, hle⟩ | ⟨hsame, _⟩)
    · exact Or.inl hle
    · exact Or.inr hsame
  · rintro (hle | rfl)
    · exact Or.inl ⟨rfl, hle⟩
    · rcases le_total time time' with hle | hle
      · exact Or.inl ⟨rfl, hle⟩
      · exact Or.inr ⟨rfl, hle⟩

theorem later_eq_max (a b : ℚ) : Seconds.later a b = max a b := by
  unfold Seconds.later
  split
  · rename_i hlt
    exact (max_eq_right hlt.le).symm
  · rename_i hlt
    exact (max_eq_left (not_lt.mp hlt)).symm

variable {pace : Plan.Pace (Premises ℚ) ℚ} {cut : Prop} {began finish : ℚ} {heard : Heard ℚ}
  {ticket : Ticket ℚ}

/-!
## One after the other
-/

namespace Blocking

def removal (queue : Queue) (ticket : Ticket ℚ) : Operation Queue ℚ Unit := do
  let popped ← Service.pop queue 1
  Service.record .blocking (.popped popped ticket.queueKey)

def renewal (queue : Queue) (ticket : Ticket ℚ) : Operation Queue ℚ Unit := do
  let _ ← Service.expire queue ticket.expiry

theorem cleanUp_eq (ticket : Ticket ℚ) :
    cleanUp ticket = (do
      let queue ← Service.connect ticket.endpoint ticket.queueKey
      let kept ← Action.ensuring (Service.close queue) do
        let ofPop ← keepError (removal queue ticket)
        let ofExpire ← keepError (renewal queue ticket)
        pure (ofPop.or ofExpire)
      match kept with
      | none => pure ()
      | some e => throw e : Operation Queue ℚ Unit) := by
  unfold cleanUp
  congr 1
  funext queue
  congr 1
  funext kept
  cases kept <;> rfl

/-- How a blocking clean-up comes to its end.  The renewal begins when the removal is over. -/
inductive Cleans (pace : Plan.Pace (Premises ℚ) ℚ) (cut : Prop) (ticket : Ticket ℚ) :
    ℚ → Heard ℚ → ℚ → Except (Failure ℚ) Unit → Prop where
  | unreached {began finish : ℚ} {heard : Heard ℚ} {e : Failure ℚ}
      (connects : (onPremises (Service.connect ticket.endpoint ticket.queueKey)).Lasts pace cut
        began heard finish (.error e)) :
      Cleans pace cut ticket began heard finish (.error e)
  | stopped {began opened removed finish : ℚ} {connecting ofRemoval closing : Heard ℚ}
      {queue : Queue} {e : Failure ℚ}
      (connects : (onPremises (Service.connect ticket.endpoint ticket.queueKey)).Lasts pace cut
        began connecting opened (.ok queue))
      (removes : (onPremises (removal queue ticket)).Lasts pace cut opened ofRemoval removed
        (.error e))
      (foreign : e.isA .semaphore = false)
      (closes : ((Service.close queue).serve serveOnPremises).Lasts pace cut removed closing finish
        ()) :
      Cleans pace cut ticket began (connecting ++ (ofRemoval ++ closing)) finish (.error e)
  | through {began opened removed renewed finish : ℚ}
      {connecting ofRemoval ofRenewal closing : Heard ℚ} {queue : Queue}
      {ofPop ofExpire : Except (Failure ℚ) Unit}
      (connects : (onPremises (Service.connect ticket.endpoint ticket.queueKey)).Lasts pace cut
        began connecting opened (.ok queue))
      (removes : (onPremises (removal queue ticket)).Lasts pace cut opened ofRemoval removed ofPop)
      (kept : ∀ e, ofPop = .error e → e.isA .semaphore = true)
      (renews : (onPremises (renewal queue ticket)).Lasts pace cut removed ofRenewal renewed
        ofExpire)
      (closes : ((Service.close queue).serve serveOnPremises).Lasts pace cut renewed closing finish
        ()) :
      Cleans pace cut ticket began (connecting ++ (ofRemoval ++ ofRenewal ++ closing)) finish
        (settled ofPop ofExpire)

def raised (kept? : Option (Failure ℚ)) : Except (Failure ℚ) Unit :=
  kept?.elim (.ok ()) .error

theorem raised_or {ofPop ofExpire : Option (Failure ℚ)}
    (hexpire : ∀ e, ofExpire = some e → e.isA .semaphore = true) :
    raised (ofPop.or ofExpire) = settled (raised ofPop) (raised ofExpire) := by
  cases ofPop with
  | none => rfl
  | some e =>
      apply Eq.symm
      apply settled_of_kept
      intro e' he'
      cases ofExpire with
      | none => cases he'
      | some _ =>
          cases he'
          exact hexpire e' rfl

theorem lasts_keepError {step : Operation Queue ℚ Unit}
    {kept : Except (Failure ℚ) (Option (Failure ℚ))}
    (h : (onPremises (keepError step)).Lasts pace cut began heard finish kept) :
    (∃ kept?, kept = .ok kept? ∧
        (onPremises step).Lasts pace cut began heard finish (raised kept?) ∧
        ∀ e, kept? = some e → e.isA .semaphore = true) ∨
      ∃ e, kept = .error e ∧ (onPremises step).Lasts pace cut began heard finish (.error e) ∧
        e.isA .semaphore = false := by
  change ((Plan.bind step.run _).serve serveOnPremises).Lasts _ _ _ _ _ _ at h
  rw [Plan.serve_bind] at h
  rcases h.of_bind with ⟨before, after, between, ended, rfl, hstep, hrest⟩
  cases ended with
  | ok _ =>
      rcases Plan.lasts_pure hrest with ⟨rfl, rfl, rfl⟩
      rw [List.append_nil]
      refine Or.inl ⟨none, rfl, hstep, ?_⟩
      intro e he
      cases he
  | error e =>
      rcases Plan.lasts_pure hrest with ⟨rfl, rfl, rfl⟩
      rw [List.append_nil]
      cases hsemaphore : e.isA .semaphore with
      | true =>
          left
          refine ⟨some e, rfl, hstep, ?_⟩
          rintro _ ⟨⟩
          exact hsemaphore
      | false => exact Or.inr ⟨e, rfl, hstep, hsemaphore⟩

/-- Both steps of a clean-up are over, or the removal has failed with something else than an error
of the semaphore. -/
theorem lasts_steps {queue : Queue} {kept : Except (Failure ℚ) (Option (Failure ℚ))}
    (h : (onPremises
      (do
        let ofPop ← keepError (removal queue ticket)
        let ofExpire ← keepError (renewal queue ticket)
        pure (ofPop.or ofExpire))).Lasts pace cut began heard finish kept) :
    (∃ e, (onPremises (removal queue ticket)).Lasts pace cut began heard finish (.error e) ∧
        e.isA .semaphore = false ∧ kept = .error e) ∨
      ∃ ofRemoval ofRenewal removed ofPop ofExpire, heard = ofRemoval ++ ofRenewal ∧
        (onPremises (removal queue ticket)).Lasts pace cut began ofRemoval removed ofPop ∧
        (∀ e, ofPop = .error e → e.isA .semaphore = true) ∧
        (onPremises (renewal queue ticket)).Lasts pace cut removed ofRenewal finish ofExpire ∧
        kept.bind raised = settled ofPop ofExpire := by
  rcases lasts_bind h with ⟨ofRemoval, rest, removed, popKept, rfl, hpop, hrest⟩ | ⟨e, hpop, rfl⟩
  · rcases lasts_keepError hpop with ⟨_, heq, hremoval, hkept⟩ | ⟨_, heq, _⟩
    · cases heq
      have hkept' : ∀ e, raised popKept = .error e → e.isA .semaphore = true := by
        intro e he
        cases popKept with
        | none => cases he
        | some _ =>
            cases he
            exact hkept e rfl
      right
      rcases lasts_bind hrest with
        ⟨ofRenewal, last, renewed, expireKept, rfl, hexpire, hlast⟩ | ⟨e, hexpire, rfl⟩
      · rcases Plan.lasts_pure hlast with ⟨rfl, rfl, rfl⟩
        rw [List.append_nil]
        rcases lasts_keepError hexpire with ⟨_, heq, hrenewal, hexpired⟩ | ⟨_, heq, _⟩
        · cases heq
          exact ⟨_, _, removed, _, _, rfl, hremoval, hkept', hrenewal, raised_or hexpired⟩
        · cases heq
      · rcases lasts_keepError hexpire with ⟨_, heq, _⟩ | ⟨_, heq, hrenewal, hforeign⟩
        · cases heq
        · cases heq
          exact ⟨_, _, removed, _, _, rfl, hremoval, hkept', hrenewal,
            (settled_of_foreign hforeign).symm⟩
    · cases heq
  · rcases lasts_keepError hpop with ⟨_, heq, _⟩ | ⟨_, heq, hremoval, hforeign⟩
    · cases heq
    · cases heq
      exact Or.inl ⟨e, hremoval, hforeign, rfl⟩

theorem lasts_cleanUp {ended : Except (Failure ℚ) Unit}
    (h : (onPremises (cleanUp ticket)).Lasts pace cut began heard finish ended) :
    Cleans pace cut ticket began heard finish ended := by
  rw [cleanUp_eq] at h
  rcases lasts_bind h with
    ⟨connecting, rest, opened, queue, rfl, hconnect, hopened⟩ | ⟨e, hconnect, rfl⟩
  · have hsteps : ∃ kept, (onPremises (Action.ensuring (Service.close queue)
        (do
          let ofPop ← keepError (removal queue ticket)
          let ofExpire ← keepError (renewal queue ticket)
          pure (ofPop.or ofExpire)))).Lasts pace cut opened rest finish kept ∧
        ended = kept.bind raised := by
      rcases lasts_bind hopened with ⟨_, _, closed, kept, rfl, hsteps, hrest⟩ | ⟨e, hsteps, rfl⟩
      · cases kept with
        | _ =>
            rcases Plan.lasts_pure hrest with ⟨rfl, rfl, rfl⟩
            rw [List.append_nil]
            exact ⟨_, hsteps, rfl⟩
      · exact ⟨_, hsteps, rfl⟩
    rcases hsteps with ⟨kept, hsteps, rfl⟩
    rcases lasts_ensuring hsteps with ⟨_, _, worked, rfl, hbody, hclose⟩
    rcases lasts_steps hbody with ⟨e, hremoval, hforeign, rfl⟩ |
      ⟨_, _, removed, ofPop, ofExpire, rfl, hremoval, hkept, hrenewal, hended⟩
    · exact .stopped hconnect hremoval hforeign hclose
    · rw [hended]
      exact .through hconnect hremoval hkept hrenewal hclose
  · exact .unreached hconnect

end Blocking

/-!
## Side by side
-/

namespace Cooperative

def settled (ofExpire ofPop : Except (Failure ℚ) Unit) : Except (Failure ℚ) Unit := do
  joined "expire" ofExpire
  joined "lpop" ofPop

theorem settled_error (e : Failure ℚ) (ofPop : Except (Failure ℚ) Unit) :
    settled (.error e) ofPop = .error (e.ofLeg "expire") := by
  unfold settled
  rw [joined_error]
  rfl

/-- A clean-up lasts as long as both of its legs, and ends by how they did. -/
theorem lasts_cleanUp_iff {ended : Except (Failure ℚ) Unit} :
    (onPremises (cleanUp ticket)).Lasts pace False began heard finish ended ↔
      ∃ renewal removal overRenewal overRemoval ofExpire ofPop, heard = renewal ++ removal ∧
        (onPremises (renewExpiry ticket)).Lasts pace False began renewal overRenewal ofExpire ∧
        (onPremises (popHead ticket)).Lasts pace False began removal overRemoval ofPop ∧
        finish = max overRenewal overRemoval ∧ ended = settled ofExpire ofPop := by
  constructor
  · intro h
    cases h with
    | joined ofLeft ofRight rest =>
        rcases Plan.lasts_pure rest with ⟨rfl, rfl, rfl⟩
        exact ⟨_, _, _, _, _, _, List.append_nil _, ofLeft, ofRight, later_eq_max _ _, rfl⟩
    | parted interrupted ofLeft ofRight rest => exact interrupted.elim
  · rintro ⟨renewal, removal, overRenewal, overRemoval, ofExpire, ofPop, rfl, hrenewal, hremoval,
      rfl, rfl⟩
    rw [← later_eq_max, ← List.append_nil (renewal ++ removal)]
    exact .joined hrenewal hremoval (.ended _ _ _)

end Cooperative

/-- The renewal of a blocking clean-up begins when the removal is over.  If both fail with an error
of the semaphore, then that of the removal is raised, and it came first.  The legs of a cooperative
clean-up begin together, and it is over when both are.  If both fail then the failure of the renewal
is raised.  It came first just when the renewal was over no later than the removal, unless one
cannot tell the two failures apart. -/
theorem first_failure_raised_iff (ticket : Ticket ℚ) (began : ℚ)
    (honward : ∀ {cut began r answer met}, pace cut began r answer met → began ≤ met) :
    (∀ cut heard finish ended,
        (onPremises (Blocking.cleanUp ticket)).Lasts pace cut began heard finish ended →
          Blocking.Cleans pace cut ticket began heard finish ended) ∧
      (∀ cut queue opened ofRemoval removed ofRenewal renewed e e',
        (onPremises (Blocking.removal queue ticket)).Lasts pace cut opened ofRemoval removed
          (.error e) →
        (onPremises (Blocking.renewal queue ticket)).Lasts pace cut removed ofRenewal renewed
          (.error e') →
        e'.isA .semaphore = true →
          Blocking.settled (.error e) (.error e') = .error e ∧ FirstOf removed renewed e e' e) ∧
      (∀ heard finish ended,
        (onPremises (Cooperative.cleanUp ticket)).Lasts pace False began heard finish ended ↔
          ∃ renewal removal overRenewal overRemoval ofExpire ofPop, heard = renewal ++ removal ∧
            (onPremises (Cooperative.renewExpiry ticket)).Lasts pace False began renewal overRenewal
              ofExpire ∧
            (onPremises (Cooperative.popHead ticket)).Lasts pace False began removal overRemoval
              ofPop ∧
            finish = max overRenewal overRemoval ∧
            ended = Cooperative.settled ofExpire ofPop) ∧
      ∀ renewal removal overRenewal overRemoval e e',
        (onPremises (Cooperative.renewExpiry ticket)).Lasts pace False began renewal overRenewal
          (.error e) →
        (onPremises (Cooperative.popHead ticket)).Lasts pace False began removal overRemoval
          (.error e') →
        ∃ raised, (onPremises (Cooperative.cleanUp ticket)).Lasts pace False began
            (renewal ++ removal) (max overRenewal overRemoval) (.error raised) ∧
          raised = e.ofLeg "expire" ∧
          (FirstOf overRenewal overRemoval (e.ofLeg "expire") (e'.ofLeg "lpop") raised ↔
            overRenewal ≤ overRemoval ∨ e.ofLeg "expire" = e'.ofLeg "lpop") := by
  refine ⟨?_, ?_, ?_, ?_⟩
  · intro cut heard finish ended h
    exact Blocking.lasts_cleanUp h
  · intro cut queue opened ofRemoval removed ofRenewal renewed e e' _ hrenewal hsemaphore
    constructor
    · apply Blocking.settled_of_kept
      rintro _ ⟨⟩
      exact hsemaphore
    · exact Or.inl ⟨rfl, hrenewal.le honward⟩
  · intro heard finish ended
    exact Cooperative.lasts_cleanUp_iff
  · intro renewal removal overRenewal overRemoval e e' hrenewal hremoval
    refine ⟨e.ofLeg "expire", ?_, rfl, firstOf_left_iff⟩
    rw [← Cooperative.settled_error e (.error e')]
    exact Cooperative.lasts_cleanUp_iff.mpr
      ⟨_, _, _, _, _, _, rfl, hrenewal, hremoval, rfl, rfl⟩

/-!
## Two legs that fail
-/

def someTime : Plan.Pace (Premises ℚ) ℚ :=
  fun _ began _ _ finish => began ≤ finish

def noList (command : String) : Failure ℚ :=
  .semaphore (.storeCommand command "gate" ClientError.wrongType.message)
    (some (.client .wrongType))

/-- The queue of a gate is no list, and the server is told of the renewal a tenth of a second after
the removal.  What is raised is the failure of the renewal, although that of the removal came
first. -/
theorem first_failure_raised_iff_at_gate : ∃ renewal removal,
    (onPremises (Cooperative.renewExpiry Wait.gateTicket)).Lasts someTime False 0 renewal (1 / 10)
      (.error (noList "EXPIRE")) ∧
    (onPremises (Cooperative.popHead Wait.gateTicket)).Lasts someTime False 0 removal 0
      (.error (noList "LPOP")) ∧
    (onPremises (Cooperative.cleanUp Wait.gateTicket)).Lasts someTime False 0 (renewal ++ removal)
      (1 / 10) (.error (noList "EXPIRE")) ∧
    ¬ FirstOf (1 / 10) 0 (noList "EXPIRE") (noList "LPOP") (noList "EXPIRE") := by
  let client : Client := ⟨0, defaultEndpoint, {}⟩
  have hrenewal : ∃ renewal, (onPremises (Cooperative.renewExpiry Wait.gateTicket)).Lasts someTime
      False 0 renewal (1 / 10) (.error (noList "EXPIRE")) := by
    apply Exists.intro
    apply Plan.Lasts.asks (show someTime False 0 (.inl (.dial defaultEndpoint)) client 0 from
      le_rfl)
    apply Plan.Lasts.asks (show someTime False 0 (.inl (.call client .ping)) (.ok ()) 0 from le_rfl)
    apply Plan.Lasts.asks (show someTime False 0 (.inl (.call client (.expire "gate" 30)))
      (.error (.client .wrongType)) (1 / 10) from by norm_num [someTime])
    apply Plan.Lasts.asks (show someTime False (1 / 10) (.inl (.hangUp client)) () (1 / 10) from
      le_rfl)
    exact .ended _ _ _
  have hremoval : ∃ removal, (onPremises (Cooperative.popHead Wait.gateTicket)).Lasts someTime
      False 0 removal 0 (.error (noList "LPOP")) := by
    apply Exists.intro
    apply Plan.Lasts.asks (show someTime False 0 (.inl (.dial defaultEndpoint)) client 0 from
      le_rfl)
    apply Plan.Lasts.asks (show someTime False 0 (.inl (.call client .ping)) (.ok ()) 0 from le_rfl)
    apply Plan.Lasts.asks (show someTime False 0 (.inl (.call client (.lpop "gate" 1)))
      (.error (.client .wrongType)) 0 from le_rfl)
    apply Plan.Lasts.asks (show someTime False 0 (.inl (.hangUp client)) () 0 from le_rfl)
    exact .ended _ _ _
  rcases hrenewal with ⟨renewal, hrenewal⟩
  rcases hremoval with ⟨removal, hremoval⟩
  have honward : ∀ {cut began r answer met}, someTime cut began r answer met → began ≤ met :=
    fun h => h
  rcases (first_failure_raised_iff Wait.gateTicket 0 honward).2.2.2 _ _ _ _ _ _ hrenewal hremoval
    with ⟨_, hcleanUp, rfl, hfirst⟩
  have hdistinct : noList "EXPIRE" ≠ noList "LPOP" := by
    intro heq
    injection heq with heq
    injection heq with heq
    exact absurd heq (by decide)
  refine ⟨renewal, removal, hrenewal, hremoval, ?_, ?_⟩
  · rw [max_eq_left (by norm_num)] at hcleanUp
    exact hcleanUp
  · intro h
    rcases hfirst.mp h with hle | hsame
    · norm_num at hle
    · exact hdistinct hsame

end Turnstile
