import Turnstile.Blocking
import Turnstile.Cooperative
import Turnstile.Rehearsal.World

/-!
# The stage

On the stage there are two things to ask for: a single change of the world, and a pause.  All
other requests are served by these two, so that a rehearsal has to deal with nothing else.

## Main definitions

* `serveConnections`, `serveAmbience` and `serveService` - how the requests of queues and
  semaphores are served on the stage.
* `Step.scene` - the plan of a step of a script.
-/

namespace Turnstile
namespace Rehearsal

inductive StageRequest (τ : Type) [Seconds τ] : Type 1 where
  | act {β : Type} (change : World τ → β × World τ)
  | pause (duration : τ)

def StageRequest.Answer (τ : Type) [Seconds τ] : StageRequest τ → Type
  | .act (β := β) _ => β
  | .pause _ => Wake

def Stage (τ : Type) [Seconds τ] : Interface where
  Request := StageRequest τ
  Answer := StageRequest.Answer τ

abbrev Scene (τ : Type) [Seconds τ] : Type → Type 1 :=
  Plan (Stage τ) τ

variable {τ : Type} [Seconds τ]

def act {β : Type} (change : World τ → β × World τ) : Scene τ β :=
  @Plan.request (Stage τ) τ (.act change)

def pause (duration : τ) : Scene τ Wake :=
  @Plan.request (Stage τ) τ (.pause duration)

def see {β : Type} (view : World τ → β) : Scene τ β :=
  act fun world => (view world, world)

def emit (event : Event τ) : Scene τ Unit :=
  act fun world => ((), world.emit event)

def delay (duration? : World τ → Option τ) : Scene τ Wake := do
  match ← see duration? with
  | none => pure .due
  | some duration => pause duration

/-- Clients on the stage.  A command that is interrupted on its way has no effect; one that is
interrupted on the way back has had its effect, and its reply is lost. -/
def serveConnections :
    (r : Redis.ClientRequest) → Scene τ (r.Answer τ)
  | .dial endpoint => act (World.dial endpoint)
  | .hangUp client => act (World.hangUp client)
  | .call client command => do
      match ← delay (World.latency client command.verb) with
      | .interrupted => pure (.error .interrupted)
      | .due =>
          let response ← act (World.call client command)
          match ← delay (World.replyLatency client command.verb) with
          | .interrupted => pure (.error .interrupted)
          | .due => pure response.reply

def serveAmbience [Rooted τ] (role : Role) : (r : AmbientRequest τ) → Scene τ (r.Answer τ)
  | .estimate position capacity base => act (World.estimate role.estimator position capacity base)
  | .sleep duration => do
      match ← act (World.beginSleep role.mode duration) with
      | .error e => pure (.error e)
      | .ok () =>
          match ← pause duration with
          | .due => pure (.ok ())
          | .interrupted => pure (.error .interrupted)
  | .now => see (·.clock)
  | .record mode entry => emit (.recorded mode entry)
  | .announce position => do
      emit (.announced position)
      pure (.ok ())
  | .freshId => act World.freshId
  | .hold ticket => act (World.hold role.holder ticket)
  | .takeOldest => act (World.takeOldest role.holder)

def serveQueues (role : Role) (r : StoreRequest Redis.Queue) :
    Scene τ (r.Answer Redis.Queue τ) := do
  match r with
  | .connect endpoint key =>
      if role.reportsConnect then
        emit (.connecting endpoint key)
  | _ => pure ()
  (Redis.serveStore r).serve serveConnections

def serveService [Rooted τ] (role : Role) :
    (r : (Service Redis.Queue τ).Request) → Scene τ ((Service Redis.Queue τ).Answer r)
  | .inl r => serveQueues role r
  | .inr r => serveAmbience role r

abbrev Attempt (τ : Type) [Seconds τ] : Type → Type 1 :=
  Action (Stage τ) τ (Failure τ)

def perform [Rooted τ] {α : Type} (role : Role) (operation : Operation Redis.Queue τ α) :
    Attempt τ α :=
  ExceptT.mk (operation.run.serve (serveService role))

def converse {α : Type} (session : Redis.Session τ α) : Attempt τ α :=
  ExceptT.mk (session.run.serve serveConnections)

def instanceOf (name : String) : Attempt τ (Instance τ) := do
  match ← ExceptT.lift (see (World.instance? name)) with
  | some user => pure user
  | none => throw (.runtime "there is no such semaphore")

def queueOf (name : String) : Attempt τ Redis.Queue := do
  match ← ExceptT.lift (see (·.queues.get? name)) with
  | some queue => pure queue
  | none => throw (.runtime "there is no such queue")

def nameQueue (name : String) (queue : Redis.Queue) : Attempt τ Unit :=
  ExceptT.lift (act fun world => ((), { world with queues := world.queues.put name queue }))

def ticketOf (form : TicketForm τ) : Attempt τ (Ticket τ) :=
  match form.issue with
  | .ok ticket => pure ticket
  | .error defect => throw (.invalid defect.message)

def Role.choose {α : Type} (role : Role) (blocking cooperative : Operation Redis.Queue τ α) :
    Operation Redis.Queue τ α :=
  match role.mode with
  | .blocking => blocking
  | .cooperative => cooperative

def acquire [Rooted τ] (user : Instance τ) (timeout : Option τ) : Attempt τ Unit :=
  perform user.role (user.role.choose (Blocking.acquire user.semaphore timeout)
    (Cooperative.acquire user.semaphore timeout))

def release [Rooted τ] (user : Instance τ) : Attempt τ Unit :=
  perform user.role (user.role.choose (Blocking.release user.semaphore)
    (Cooperative.release user.semaphore))

namespace Step

variable [Rooted τ]

mutual

def scene : Step τ → Scene τ (Outcome τ)
  | .create name form choices => act (World.create name form choices)
  | .acquire name timeout => ExceptT.run (m := Scene τ) do
      let user ← instanceOf name
      Turnstile.Rehearsal.acquire user timeout
      pure (.flag true)
  | .release name => ExceptT.run (m := Scene τ) do
      let user ← instanceOf name
      Turnstile.Rehearsal.release user
      pure .nothing
  | .queueLength name => ExceptT.run (m := Scene τ) do
      let user ← instanceOf name
      pure (.count (← perform user.role user.semaphore.queueLength))
  | .hold name body message => ExceptT.run (m := Scene τ) do
      let user ← instanceOf name
      Action.between (Turnstile.Rehearsal.acquire user none) (Turnstile.Rehearsal.release user) do
        let outcomes ← ExceptT.lift (scenes body)
        match message with
        | none => pure (.held outcomes)
        | some message => throw (.runtime message)
  | .wait form timeout watched choices => ExceptT.run (m := Scene τ) do
      let ticket ← ticketOf form
      let role ← ExceptT.lift (act (World.cast choices none))
      perform role (role.choose (Blocking.wait ticket timeout) (Cooperative.wait ticket watched))
      pure .nothing
  | .cleanUp form choices => ExceptT.run (m := Scene τ) do
      let ticket ← ticketOf form
      let role ← ExceptT.lift (act (World.cast choices none))
      perform role (role.choose (Blocking.cleanUp ticket) (Cooperative.cleanUp ticket))
      pure .nothing
  | .sleep duration => do
      match ← pause duration with
      | .due => pure (.ok .nothing)
      | .interrupted => pure (.error .interrupted)
  | .connect name endpoint key => ExceptT.run (m := Scene τ) do
      nameQueue name (← converse (Redis.Queue.connect endpoint key))
      pure .nothing
  | .attach name endpoint key ownsClient => ExceptT.run (m := Scene τ) do
      let client ← ExceptT.lift (act (World.newClient endpoint))
      nameQueue name ⟨client, key, ownsClient⟩
      pure .nothing
  | .push name id => ExceptT.run (m := Scene τ) do
      let queue ← queueOf name
      pure (.count (← converse (queue.push id)))
  | .position name id => ExceptT.run (m := Scene τ) do
      let queue ← queueOf name
      pure (.rank (← converse (queue.position id)))
  | .pop name count => ExceptT.run (m := Scene τ) do
      let queue ← queueOf name
      pure (.ids (← converse (queue.pop count)))
  | .expire name seconds => ExceptT.run (m := Scene τ) do
      let queue ← queueOf name
      pure (.flag (← converse (queue.expire seconds)))
  | .length name => ExceptT.run (m := Scene τ) do
      let queue ← queueOf name
      pure (.count (← converse queue.length))
  | .close name => ExceptT.run (m := Scene τ) do
      let queue ← queueOf name
      converse (ExceptT.lift queue.close)
      pure .nothing
  | .describe name => ExceptT.run (m := Scene τ) do
      let queue ← queueOf name
      let mode ← ExceptT.lift (see (·.mode))
      pure (.queue queue.key (queue.text mode))
  | .change edit => act (World.change edit)
  | .cancel task => act (World.cancel task)
  | .fail failure _ => pure (.error failure)

/-- The scenes of several steps, one after the other.  One that fails does not stop the rest. -/
def scenes : List (Step τ) → Scene τ (List (Outcome τ))
  | [] => pure []
  | step :: rest => do
      let outcome ← scene step
      let outcomes ← scenes rest
      pure (outcome :: outcomes)

end

end Step

end Rehearsal
end Turnstile
