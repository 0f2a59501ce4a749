import Turnstile.Blocking
import Turnstile.Cooperative
import Turnstile.Proofs.Plan.Alike
import Turnstile.Proofs.Vigil.Basic

/-!
# Two ways to wait

A blocking and a cooperative caller that wait for a slot do the same: they open and close the same
queue, send it the same requests, ask for the same estimates and sleep as long, and in the end both
have a slot or both fail for the same reason.  This holds for any store and any estimates, as long
as no sleep is shorter than nothing.

Only the journal tells the two apart.  Their clocks can show different times.

## Main definitions

* `Matched` - surroundings that answer a blocking and a cooperative caller alike.

## Main statements

* `waits_are_twins` - a blocking wait without a limit and a cooperative wait show the same.
-/

namespace Turnstile

open Service

variable {Q τ α : Type} [Seconds τ]

/-- Whether a request is neither a look at the clock nor a line in the journal. -/
def Shown : (Service Q τ).Request → Bool
  | .inr .now => false
  | .inr (.record ..) => false
  | _ => true

def Agree (first second : Plan.Surroundings (Service Q τ)) (r : (Service Q τ).Request)
    (a a' : (Service Q τ).Answer r) : Prop :=
  ∃ heard heard', Plan.seen Shown heard = Plan.seen Shown heard' ∧ first heard r = a ∧
    second heard' r = a'

/-- Surroundings that answer two callers alike.  Their stores and their estimates depend on what was
shown only, and so does a sleep that is not shorter than nothing.  If one clock cannot tell how much
time has passed, neither can the other. -/
structure Matched (first second : Plan.Surroundings (Service Q τ)) : Prop where
  store : ∀ {r : StoreRequest Q} {a a' : r.Answer Q τ}, Agree first second (.inl r) a a' → a = a'
  estimate : ∀ {position capacity : Int} {base : τ} {a a' : Except (Failure τ) τ},
    Agree first second (.inr (.estimate position capacity base)) a a' → a = a'
  notNegative : ∀ {heard : List (Plan.Exchange (Service Q τ))} {position capacity : Int}
    {base duration : τ},
    first heard (.inr (.estimate position capacity base)) = Except.ok duration → 0 ≤ duration
  /-- However long they are: that a platform cannot sleep for more than about 9.2e9 seconds, and that
  its two ways to sleep may then fail differently, is left out. -/
  sleep : ∀ {duration : τ} {a a' : Except (Failure τ) Unit}, 0 ≤ duration →
    Agree first second (.inr (.sleep duration)) a a' → a = a'
  span : ∀ {started started' time time' : τ}, Agree first second (.inr .now) started started' →
    Agree first second (.inr .now) time time' → ∀ e,
      Seconds.toMillis (time - started) = .error e ↔ Seconds.toMillis (time' - started') = .error e

section Alike

variable {first second : Plan.Surroundings (Service Q τ)} {queue : Q} {ticket : Ticket τ}
  {started started' : τ} {position : Int}

theorem agreeing : Plan.Agreeing Shown (Agree first second) first second := by
  intro heard heard' hseen r
  exact ⟨heard, heard', hseen, rfl, rfl⟩

/-!
## Requests
-/

theorem alike_store {r : StoreRequest Q} {f g : r.Answer Q τ → Plan (Service Q τ) τ α}
    (h : Matched first second) (hnext : ∀ a, (f a).Alike Shown (Agree first second) (g a)) :
    Plan.Alike Shown (Agree first second) (.ask (.inl r) f) (.ask (.inl r) g) := by
  apply Plan.Alike.both
  · intro _ a a' hagree
    exact h.store hagree
  · intro a a' hagree
    cases h.store hagree
    exact hnext a

theorem alike_record_left {mode : Mode} {entry : Entry τ} {p : Operation Q τ α}
    {q : Plan (Service Q τ) τ (Except (Failure τ) α)}
    (h : p.run.Alike Shown (Agree first second) q) :
    (record mode entry >>= fun _ => p : Operation Q τ α).run.Alike Shown (Agree first second) q :=
  .left _ rfl fun _ => h

theorem alike_record_right {mode : Mode} {entry : Entry τ} {q : Operation Q τ α}
    {p : Plan (Service Q τ) τ (Except (Failure τ) α)}
    (h : p.Alike Shown (Agree first second) q.run) :
    p.Alike Shown (Agree first second) (record mode entry >>= fun _ => q : Operation Q τ α).run :=
  .right _ rfl fun _ => h

theorem alike_elapsedSince {f g : Int → Operation Q τ α} (h : Matched first second)
    (hstarted : Agree first second (.inr .now) started started')
    (hnext : ∀ ms ms', (f ms).run.Alike Shown (Agree first second) (g ms').run) :
    (elapsedSince started >>= f).run.Alike Shown (Agree first second)
      (elapsedSince started' >>= g).run := by
  unfold elapsedSince
  apply Plan.Alike.both
  · intro hshown
    cases hshown
  · intro (time : τ) (time' : τ) htime
    have hspan := h.span hstarted htime
    dsimp only [Plan.bind, Function.comp, ExceptT.bindCont]
    cases hfirst : Seconds.toMillis (time - started) with
    | ok ms =>
        cases hsecond : Seconds.toMillis (time' - started') with
        | ok ms' => exact hnext ms ms'
        | error e =>
            rw [(hspan e).mpr hsecond] at hfirst
            cases hfirst
    | error e =>
        rw [(hspan e).mp hfirst]
        exact .ended _

/-!
## Rounds
-/

theorem look_alike (h : Matched first second)
    (hstarted : Agree first second (.inr .now) started started') :
    (Blocking.look queue ticket none started position).run.Alike Shown (Agree first second)
      (Cooperative.look queue ticket started' position).run := by
  unfold Blocking.look Cooperative.look
  cases ticket.verdict position with
  | admitted =>
      apply alike_elapsedSince h hstarted
      intro ms ms'
      apply alike_record_left
      apply alike_record_right
      exact .ended _
  | rejected =>
      apply alike_record_right
      exact .ended _
  | waiting =>
      apply Plan.Alike.both
      · intro _ a a' hagree
        exact h.estimate hagree
      · intro (reply : Except (Failure τ) τ) (reply' : Except (Failure τ) τ) hagree
        cases h.estimate hagree
        cases reply with
        | error e => exact .ended _
        | ok duration =>
            have hduration : 0 ≤ duration := by
              rcases hagree with ⟨heard, heard', _, hfirst, _⟩
              exact h.notNegative hfirst
            apply alike_record_right
            apply Plan.Alike.both
            · intro _ a a' hslept
              exact h.sleep hduration hslept
            · intro (slept : Except (Failure τ) Unit) (slept' : Except (Failure τ) Unit) hslept
              cases h.sleep hduration hslept
              cases slept with
              | error e => exact .ended _
              | ok _ =>
                  apply alike_store h
                  intro (reply : Except (Failure τ) (Option Nat))
                  cases reply with
                  | error e => exact .ended _
                  | ok rank =>
                      apply alike_record_left
                      -- Only the cooperative caller notes that it was not found.
                      cases rank with
                      | none =>
                          apply alike_record_right
                          apply alike_record_right
                          exact .ended _
                      | some rank =>
                          apply alike_record_right
                          exact .ended _

/-!
## Waits
-/

theorem rounds_alike {f g : Except (Failure τ) Unit → Plan (Service Q τ) τ α}
    (h : Matched first second) (hstarted : Agree first second (.inr .now) started started')
    (hnext : ∀ ended, (f ended).Alike Shown (Agree first second) (g ended)) :
    ((Action.repeatFrom position (Blocking.look queue ticket none started) :
        Operation Q τ Unit).run.bind f).Alike Shown (Agree first second)
      ((Action.repeatFrom position (Cooperative.look queue ticket started') :
        Operation Q τ Unit).run.bind g) := by
  apply Plan.Alike.loop
  · intro position'
    apply (look_alike h hstarted).bind
    intro ended
    cases ended with
    | ok result =>
        cases result with
        | inl s => exact .ended _
        | inr a => exact .ended _
    | error e => exact .ended _
  · exact hnext

/-- A blocking wait without a limit is like a cooperative wait that nobody watches. -/
theorem wait_alike (h : Matched first second) :
    (Blocking.wait ticket none : Operation Q τ Unit).run.Alike Shown (Agree first second)
      (Cooperative.wait ticket false : Operation Q τ Unit).run := by
  apply alike_store h
  intro (reply : Except (Failure τ) Q)
  cases reply with
  | error e => exact .ended _
  | ok queue =>
      apply Plan.Alike.both
      · intro hshown
        cases hshown
      · intro (started : τ) (started' : τ) hstarted
        apply alike_store h
        intro (reply : Except (Failure τ) Nat)
        cases reply with
        | error e =>
            apply alike_store h
            intro _
            exact .ended _
        | ok length =>
            apply Plan.Alike.left _ rfl
            intro _
            apply Plan.Alike.right _ rfl
            intro _
            apply rounds_alike h hstarted
            intro ended
            apply alike_store h
            intro _
            exact .ended _

/-- A blocking wait without a limit and a cooperative wait that nobody watches show the same
requests in the same order, with the same answers.  Either both have ended, with the same slot or the
same failure, or neither has. -/
theorem waits_are_twins (h : Matched first second) (ticket : Ticket τ)
    (events : List (Plan.Exchange (Service Q τ))) :
    ((Blocking.wait ticket none : Operation Q τ Unit).run.Reaches Shown first events ↔
        (Cooperative.wait ticket false : Operation Q τ Unit).run.Reaches Shown second events) ∧
      ∀ outcome,
        (Blocking.wait ticket none : Operation Q τ Unit).run.Finishes Shown first events outcome ↔
          (Cooperative.wait ticket false : Operation Q τ Unit).run.Finishes Shown second events
            outcome := by
  constructor
  · exact (wait_alike h).reaches_iff agreeing
  · intro outcome
    exact (wait_alike h).finishes_iff agreeing

end Alike

/-!
## Two clocks
-/

/-- Surroundings in which two others have entered, and the second look finds nobody in front. -/
def shortQueue (clock : Float) : Plan.Surroundings (Service Unit Float)
  | _, .inl (.connect ..) => Except.ok ()
  | _, .inl (.push ..) => Except.ok (3 : Nat)
  | heard, .inl (.position ..) =>
      Except.ok (if (Plan.seen Shown heard).length < 7 then none else some (0 : Nat))
  | _, .inl (.pop ..) => Except.ok ([] : List String)
  | _, .inl (.expire ..) => Except.ok true
  | _, .inl (.length ..) => Except.ok (0 : Nat)
  | _, .inl (.close ..) => ()
  | _, .inr (.estimate ..) => Except.ok (0.5 : Float)
  | _, .inr (.sleep _) => Except.ok ()
  | _, .inr .now => clock
  | _, .inr (.record ..) => ()
  | _, .inr (.announce _) => Except.ok ()
  | _, .inr .freshId => "3"
  | _, .inr (.hold _) => ()
  | _, .inr .takeOldest => (none : Option (Ticket Float))

theorem matched_shortQueue : Matched (shortQueue 0) (shortQueue 7) := by
  constructor
  · intro r a a' hagree
    rcases hagree with ⟨heard, heard', hseen, rfl, rfl⟩
    cases r with
    | position queue id =>
        show Except.ok (if (Plan.seen Shown heard).length < 7 then none else some (0 : Nat)) = _
        rw [hseen]
        rfl
    | _ => rfl
  · intro position capacity base a a' hagree
    rcases hagree with ⟨heard, heard', _, rfl, rfl⟩
    rfl
  · intro heard position capacity base duration hestimate
    cases hestimate
    decide +kernel
  · intro duration a a' _ hagree
    rcases hagree with ⟨heard, heard', _, rfl, rfl⟩
    rfl
  · intro started started' time time' hstarted htime e
    rcases hstarted with ⟨_, _, _, rfl, rfl⟩
    rcases htime with ⟨_, _, _, rfl, rfl⟩
    have hmeasured : ∀ x : Float, (Seconds.toMillis x).toOption.isSome = true →
        ¬ Seconds.toMillis x = .error e := by
      intro x hx he
      rw [he] at hx
      cases hx
    constructor
    · intro he
      exact absurd he (hmeasured (0 - 0) (by decide +kernel))
    · intro he
      exact absurd he (hmeasured (7 - 7) (by decide +kernel))

def shortCourse (steps : Nat) :
    Plan.Course (Service Unit Float) Float (Except (Failure Float) Unit) :=
  (Plan.Course.mk [] (Blocking.wait Vigil.lateTicket none).run).after (shortQueue 0) steps

/-- Both callers have a slot after nine requests, whatever their clocks show. -/
theorem waits_are_twins_in_shortQueue : ∃ events, events.length = 9 ∧
    (Blocking.wait Vigil.lateTicket none : Operation Unit Float Unit).run.Finishes Shown
      (shortQueue 0) events (.ok ()) ∧
    (Cooperative.wait Vigil.lateTicket false : Operation Unit Float Unit).run.Finishes Shown
      (shortQueue 7) events (.ok ()) := by
  have hended : (shortCourse 19).plan.result?.map (fun ended => ended.toOption) =
      some (some ()) := by
    decide +kernel
  have hlength : (Plan.seen Shown (shortCourse 19).heard).length = 9 := by
    decide +kernel
  rcases Option.map_eq_some_iff.mp hended with ⟨ended, hresult, hok⟩
  cases ended with
  | error e => cases hok
  | ok _ =>
      have hblocking : (Blocking.wait Vigil.lateTicket none : Operation Unit Float Unit).run.Finishes
          Shown (shortQueue 0) (Plan.seen Shown (shortCourse 19).heard) (.ok ()) :=
        ⟨19, rfl, Plan.eq_of_result? hresult⟩
      have htwins := (waits_are_twins matched_shortQueue Vigil.lateTicket
        (Plan.seen Shown (shortCourse 19).heard)).2 (.ok ())
      exact ⟨_, hlength, hblocking, htwins.mp hblocking⟩

end Turnstile
