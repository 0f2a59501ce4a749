import Turnstile.Proofs.Refusal
import Turnstile.Proofs.Rounds

/-!
# Requests for a free slot

Where nothing fails and no time passes, a user that asks for a slot while one is free enters the
queue and holds its slot at once.  A cooperative user that has no time at all does not even enter:
its limit has passed before its wait can begin, so that it is refused although a slot is free.

## Main definitions

* `Redis.Keyspace.following` - what a server keeps after all the commands among some exchanges.
* `Calm` - surroundings in which nothing fails.
* `User.Begins` - whether the wait of a user begins.

## Main statements

* `User.granted_unless_late` - a free slot is granted to every user whose wait begins.
-/

namespace Turnstile

open Redis

variable {τ : Type} [Seconds τ]

/-- What a server keeps after all the commands among some exchanges, at one moment. -/
def Redis.Keyspace.following (keys : Keyspace τ) (decodes : Bool) (time : τ)
    (heard : List (Plan.Exchange (Premises τ))) : Keyspace τ :=
  heard.foldl (fun keys exchange =>
    match exchange.1 with
    | .inl (.call _ command) => (keys.run decodes time command).2
    | _ => keys) keys

theorem Redis.Keyspace.following_append (keys : Keyspace τ) (decodes : Bool) (time : τ)
    (heard later : List (Plan.Exchange (Premises τ))) :
    keys.following decodes time (heard ++ later) =
      (keys.following decodes time heard).following decodes time later :=
  List.foldl_append

/-- Surroundings in which nothing fails.  Every command is answered by what the server keeps. -/
structure Calm (semaphore : Semaphore τ) (keys : Keyspace τ) (decodes : Bool) (time : τ)
    (client : Client) (id : String) (surroundings : Plan.Surroundings (Premises τ)) : Prop where
  freshId : ∀ heard, surroundings heard (.inr .freshId) = id
  notEmpty : id ≠ ""
  dial : ∀ heard, surroundings heard (.inl (.dial semaphore.endpoint)) = client
  serves : ∀ heard command, surroundings heard (.inl (.call client command)) =
    ((keys.following decodes time heard).run decodes time command).1.reply
  measured : ∀ heard heard' (started stopped : τ), surroundings heard (.inr .now) = started →
    surroundings heard' (.inr .now) = stopped → ∃ ms, Seconds.toMillis (stopped - started) = .ok ms

/-- What a wait shows that enters a queue and finds a free slot. -/
def admittance (ticket : Ticket τ) (client : Client) (length : Nat) :
    List (Plan.Exchange (Premises τ)) :=
  [⟨.inl (.dial ticket.endpoint), client⟩, ⟨.inl (.call client .ping), Except.ok ()⟩,
    ⟨.inl (.call client (.rpush ticket.queueKey ticket.id)), Except.ok length⟩,
    ⟨.inl (.hangUp client), ()⟩]

def granting (ticket : Ticket τ) (client : Client) (length : Nat) :
    List (Plan.Exchange (Premises τ)) :=
  ⟨.inr .freshId, ticket.id⟩ :: (admittance ticket client length ++
    [⟨.inr (.hold ticket), ()⟩])

namespace User

/-- Whether the wait of a user begins.  A cooperative user has to have some time left for it. -/
def Begins (user : User τ) (limit : Option τ) : Prop :=
  match user.mode with
  | .blocking => True
  | .cooperative => ∀ duration, limit = some duration → ¬ duration ≤ 0

end User

namespace Calm

theorem following_entered {keys : Keyspace τ} {decodes : Bool} {time started : τ} {client : Client}
    {endpoint : String} {heard : List (Plan.Exchange (Premises τ))}
    (hheard : keys.following decodes time heard = keys) :
    keys.following decodes time (heard ++ [⟨.inl (.dial endpoint), client⟩] ++
      [⟨.inl (.call client .ping), Except.ok ()⟩] ++ [⟨.inr .now, started⟩]) = keys := by
  simp only [Keyspace.following_append, hheard]
  rfl

variable {semaphore : Semaphore τ} {keys : Keyspace τ} {decodes : Bool} {time : τ} {client : Client}
  {id : String} {surroundings : Plan.Surroundings (Premises τ)} {line : List ByteArray}
  {ticket : Ticket τ} {heard : List (Plan.Exchange (Premises τ))}

theorem ping (h : Calm semaphore keys decodes time client id surroundings) :
    surroundings heard (.inl (.call client .ping)) = Except.ok () :=
  h.serves heard .ping

theorem arrives_newTicket {β : Type} {next : Ticket τ → Operation Queue τ β}
    {events : List (Plan.Exchange (Premises τ))}
    {there : Plan.Course (Premises τ) τ (Except (Failure τ) β) → Prop}
    (h : Calm semaphore keys decodes time client id surroundings)
    (hticket : (semaphore.ticketForm id).issue = .ok ticket)
    (hrest : Plan.Arrives Outward surroundings
      ⟨heard ++ [⟨.inr .freshId, id⟩], onPremises (next ticket)⟩ events there) :
    Plan.Arrives Outward surroundings ⟨heard, onPremises (semaphore.newTicket >>= next)⟩
      (⟨.inr .freshId, id⟩ :: events) there := by
  apply Plan.Arrives.ask rfl (h.freshId _)
  dsimp only [Plan.bind, Function.comp, ExceptT.bindCont]
  rw [hticket]
  exact hrest

section Entering

variable (h : Calm semaphore keys decodes time client id surroundings)
  (hform : ticket.toTicketForm = semaphore.ticketForm id)
  (hlists : keys.Lists semaphore.queueKey line) (hheard : keys.following decodes time heard = keys)

include h hform

theorem dial_ticket : surroundings heard (.inl (.dial ticket.endpoint)) = client := by
  rw [hform]
  exact h.dial heard

include hlists hheard

theorem push : surroundings heard (.inl (.call client (.rpush ticket.queueKey ticket.id))) =
    Except.ok (line.length + 1) := by
  rw [hform, h.serves, hheard]
  exact hlists.rpush_reply id

theorem arrives_blocking_wait {limit : Option τ}
    (hfree : (line.length : Int) < semaphore.capacity) :
    Plan.Arrives Outward surroundings ⟨heard, onPremises (Blocking.wait ticket limit)⟩
      (admittance ticket client (line.length + 1)) fun course => course.plan = .pure (.ok ()) := by
  apply Plan.Arrives.ask rfl (h.dial_ticket hform)
  apply Plan.Arrives.ask rfl h.ping
  apply Plan.Arrives.hidden rfl
  intro (started : τ) hstarted
  apply Plan.Arrives.ask rfl (h.push hform hlists (following_entered hheard))
  apply Plan.Arrives.hidden rfl
  intro _ _
  show Plan.Arrives _ _
    ⟨_, (Wait.blocking limit).remainder ticket client started ((line.length + 1 : Nat) - 1)⟩ _ _
  apply Wait.arrives_granted
  · intro heard time htime
    exact h.measured _ heard started time hstarted htime
  · rw [hform]
    show _ < semaphore.capacity
    omega

theorem arrives_follow (hfree : (line.length : Int) < semaphore.capacity) :
    Plan.Arrives Outward surroundings
      ⟨heard, (Cooperative.follow ticket false).serve serveOnPremises⟩
      (admittance ticket client (line.length + 1))
      fun course => course.plan = .pure ⟨true, .ok ()⟩ := by
  have hverdict : ticket.verdict ((line.length + 1 : Nat) - 1) = .admitted := by
    rw [hform]
    exact if_pos (by show _ < semaphore.capacity; omega)
  apply Plan.Arrives.ask rfl (h.dial_ticket hform)
  apply Plan.Arrives.ask rfl h.ping
  apply Plan.Arrives.hidden rfl
  intro (started : τ) hstarted
  apply Plan.Arrives.ask rfl (h.push hform hlists (following_entered hheard))
  apply Plan.Arrives.hidden rfl
  intro _ _
  show Plan.Arrives _ _
    ⟨_, (onPremises (Action.repeatFrom (((line.length + 1 : Nat) : Int) - 1)
      (Cooperative.look ⟨client, ticket.queueKey, true⟩ ticket started))).bind fun outcome =>
        ((Service.close ⟨client, ticket.queueKey, true⟩).bind fun _ =>
          .pure (Cooperative.Waited.mk true outcome)).serve serveOnPremises⟩ _ _
  apply Wait.arrives_admitted
  · intro heard time htime
    exact h.measured _ heard started time hstarted htime
  · unfold Cooperative.look
    rw [hverdict]
  · intro heard
    apply Plan.Arrives.ask rfl rfl
    exact Plan.Arrives.here rfl

theorem arrives_followWithin {limit : Option τ} (hfree : (line.length : Int) < semaphore.capacity)
    (hleft : ∀ duration, limit = some duration → ¬ duration ≤ 0) :
    Plan.Arrives Outward surroundings
      ⟨heard, (Cooperative.followWithin ticket limit).serve serveOnPremises⟩
      (admittance ticket client (line.length + 1)) fun course => course.plan = .pure ⟨true, .ok ()⟩ := by
  have hfollow := h.arrives_follow hform hlists hheard hfree
  cases limit with
  | none => exact hfollow
  | some duration =>
      rw [← List.append_nil (admittance ticket client (line.length + 1))]
      exact Plan.Arrives.within (hleft duration rfl) hfollow fun heard => Plan.Arrives.here rfl

end Entering

end Calm

namespace User

variable {user : User τ} {keys : Keyspace τ} {decodes : Bool} {time : τ} {client : Client}
  {id : String} {surroundings : Plan.Surroundings (Premises τ)} {line : List ByteArray}
  {ticket : Ticket τ} {limit : Option τ}

theorem arrives_blocking (h : Calm user.semaphore keys decodes time client id surroundings)
    (hticket : (user.semaphore.ticketForm id).issue = .ok ticket)
    (hlists : keys.Lists user.semaphore.queueKey line)
    (hfree : (line.length : Int) < user.semaphore.capacity) :
    Plan.Arrives Outward surroundings ⟨[], onPremises (Blocking.acquire user.semaphore limit)⟩
      (granting ticket client (line.length + 1)) fun course => course.plan = .pure (.ok ()) := by
  have hform := TicketForm.toTicketForm_of_issue hticket
  have hid : ticket.id = id := congrArg TicketForm.id hform
  unfold Blocking.acquire granting
  rw [hid]
  apply h.arrives_newTicket hticket
  rw [onPremises_bind, onPremises_tryCatch, Plan.bind_assoc]
  apply Plan.Arrives.bind (h.arrives_blocking_wait hform hlists rfl hfree)
  intro heard
  apply Plan.Arrives.ask rfl rfl
  exact Plan.Arrives.here rfl

theorem arrives_cooperative (h : Calm user.semaphore keys decodes time client id surroundings)
    (hticket : (user.semaphore.ticketForm id).issue = .ok ticket)
    (hlists : keys.Lists user.semaphore.queueKey line)
    (hfree : (line.length : Int) < user.semaphore.capacity)
    (hleft : ∀ duration, limit = some duration → ¬ duration ≤ 0) :
    Plan.Arrives Outward surroundings ⟨[], onPremises (Cooperative.acquire user.semaphore limit)⟩
      (granting ticket client (line.length + 1)) fun course => course.plan = .pure (.ok ()) := by
  have hform := TicketForm.toTicketForm_of_issue hticket
  have hid : ticket.id = id := congrArg TicketForm.id hform
  unfold Cooperative.acquire granting
  rw [hid]
  apply h.arrives_newTicket hticket
  apply Plan.Arrives.hidden rfl
  intro (started : τ) hstarted
  show Plan.Arrives _ _
    ⟨_, onPremises (ExceptT.lift (Cooperative.followWithin ticket limit) >>= _)⟩ _ _
  rw [onPremises_bind, onPremises_lift, Plan.bind_assoc]
  apply Plan.Arrives.bind (h.arrives_followWithin hform hlists rfl hfree hleft)
  intro heard
  apply Plan.Arrives.ask rfl rfl
  exact Plan.Arrives.here rfl

theorem arrives_late (h : Calm user.semaphore keys decodes time client id surroundings)
    {duration : τ} (hpassed : duration ≤ 0) :
    Plan.Arrives Outward surroundings
      ⟨[], onPremises (Cooperative.acquire user.semaphore (some duration))⟩
      [⟨.inr .freshId, id⟩] fun course => ∃ ms, course.plan =
        .pure (.error (.plain (.acquireTimeout user.semaphore.key (some duration) ms))) := by
  rcases user.semaphore.exists_issue h.notEmpty with ⟨ticket, hticket⟩
  unfold Cooperative.acquire
  apply h.arrives_newTicket hticket
  apply Plan.Arrives.hidden rfl
  intro (started : τ) hstarted
  apply Plan.Arrives.late hpassed
  apply Plan.Arrives.hidden rfl
  intro (stopped : τ) hstopped
  rcases h.measured _ _ started stopped hstarted hstopped with ⟨ms, hms⟩
  dsimp only [Plan.bind, Function.comp, ExceptT.bindCont]
  rw [hms]
  exact Plan.Arrives.here ⟨ms, rfl⟩

/-- A user that asks for a slot while one is free is granted it, whatever its limit and the largest
tolerated position are, if its wait begins.  It makes one entry, at the end of the queue, neither
sleeps nor removes a head, and holds one slot more.  If its wait does not begin then it is told that
its time has passed, and nothing is sent to the server. -/
theorem granted_unless_late (user : User τ) (limit : Option τ)
    (h : Calm user.semaphore keys decodes time client id surroundings)
    (hlists : keys.Lists user.semaphore.queueKey line)
    (hfree : (line.length : Int) < user.semaphore.capacity) :
    ∃ ticket, ticket.toTicketForm = user.semaphore.ticketForm id ∧
      (user.Begins limit →
        (onPremises (user.acquire limit)).Finishes Outward surroundings
            (granting ticket client (line.length + 1)) (.ok ()) ∧
          (keys.following decodes time (granting ticket client (line.length + 1))).Lists
            user.semaphore.queueKey (line ++ [id.toUTF8])) ∧
      (¬ user.Begins limit → ∃ ms,
        (onPremises (user.acquire limit)).Finishes Outward surroundings [⟨.inr .freshId, id⟩]
          (.error (.plain (.acquireTimeout user.semaphore.key limit ms)))) := by
  rcases user.semaphore.exists_issue h.notEmpty with ⟨ticket, hticket⟩
  have hform := TicketForm.toTicketForm_of_issue hticket
  have hlists' : (keys.following decodes time (granting ticket client (line.length + 1))).Lists
      user.semaphore.queueKey (line ++ [id.toUTF8]) := by
    show (keys.rpush ticket.queueKey ticket.id).2.Lists _ _
    rw [hform]
    exact hlists.rpush id
  exists ticket, hform
  unfold acquire Begins
  cases user.mode with
  | blocking =>
      constructor
      · intro _
        exact ⟨(arrives_blocking h hticket hlists hfree).finishes, hlists'⟩
      · intro hlate
        exact absurd trivial hlate
  | cooperative =>
      constructor
      · intro hleft
        exact ⟨(arrives_cooperative h hticket hlists hfree hleft).finishes, hlists'⟩
      · intro hlate
        push Not at hlate
        rcases hlate with ⟨duration, rfl, hpassed⟩
        rcases arrives_late h hpassed with ⟨steps, ⟨ms, hended⟩, hseen⟩
        exact ⟨ms, steps, hseen, hended⟩

/-!
## An empty queue
-/

def servedPremises (keys : Keyspace Float) : Plan.Surroundings (Premises Float)
  | heard, .inl (.call _ command) => ((keys.following false 0 heard).run false 0 command).1.reply
  | heard, r => Wait.stillPremises 0 (fun _ => none) heard r

theorem calm_servedPremises (semaphore : Semaphore Float) (keys : Keyspace Float) :
    Calm semaphore keys false 0 ⟨0, semaphore.endpoint, {}⟩ "3" (servedPremises keys) where
  freshId _ := rfl
  notEmpty := by decide
  dial _ := rfl
  serves _ _ := rfl
  measured heard heard' started stopped hstarted hstopped := by
    have hbase : 0 ≤ Vigil.lateTicket.baseSleep := by decide +kernel
    have hstill := Wait.smooth_stillPremises hbase 0 fun _ => none
    exact hstill.measured heard heard' started stopped hstarted hstopped

/-- The slot of an empty booth is granted to a blocking user that has no time, and to a cooperative
one that has a little.  A cooperative user that has none is refused. -/
theorem granted_unless_late_of_empty :
    (∃ ticket, (onPremises (User.acquire ⟨.blocking, Scene.booth, []⟩ (some 0))).Finishes Outward
      (servedPremises {}) (granting ticket ⟨0, Scene.booth.endpoint, {}⟩ 1) (.ok ())) ∧
    (∃ ticket, (onPremises (User.acquire ⟨.cooperative, Scene.booth, []⟩ (some 0.1))).Finishes
      Outward (servedPremises {}) (granting ticket ⟨0, Scene.booth.endpoint, {}⟩ 1) (.ok ())) ∧
    ∃ ms, (onPremises (User.acquire ⟨.cooperative, Scene.booth, []⟩ (some 0))).Finishes Outward
      (servedPremises {}) [⟨.inr .freshId, "3"⟩]
      (.error (.plain (.acquireTimeout Scene.booth.key (some 0) ms))) := by
  have hcalm := calm_servedPremises Scene.booth {}
  have hlists : ({} : Keyspace Float).Lists Scene.booth.queueKey [] := ⟨by decide, rfl⟩
  have hfree : (([] : List ByteArray).length : Int) < Scene.booth.capacity := by decide
  refine ⟨?_, ?_, ?_⟩
  · rcases granted_unless_late ⟨.blocking, Scene.booth, []⟩ (some 0) hcalm hlists hfree with
      ⟨ticket, _, hgranted, _⟩
    exact ⟨ticket, (hgranted trivial).1⟩
  · rcases granted_unless_late ⟨.cooperative, Scene.booth, []⟩ (some 0.1) hcalm hlists hfree with
      ⟨ticket, _, hgranted, _⟩
    exists ticket
    refine (hgranted ?_).1
    rintro _ ⟨⟩
    decide +kernel
  · rcases granted_unless_late ⟨.cooperative, Scene.booth, []⟩ (some 0) hcalm hlists hfree with
      ⟨ticket, _, _, hlate⟩
    refine hlate fun hleft => hleft 0 rfl ?_
    decide +kernel

end User

end Turnstile
