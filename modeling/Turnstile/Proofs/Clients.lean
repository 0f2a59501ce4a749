import Mathlib.Algebra.BigOperators.Group.List.Basic
import Turnstile.Proofs.Handles
import Turnstile.Proofs.Premises

/-!
# Open clients

Opening a queue makes a client and sends it a first command, and closing the queue hangs the client
up.  If the first command fails there is no queue.  Then the client is hung up at once if its server
could not be reached.  After any other failure, and after an interruption, it is given up as it is.

An operation closes the queues that it opens, so that every client that it makes is hung up once or
given up.  The clients that are open when nothing is in progress are those that were given up.

## Main definitions

* `dialled`, `hungUp` and `givenUp` - what became of clients, by what was asked and answered.
* `clients` - from which answer to which request a client is in the hands of an operation.
* `Opening` - the ways in which the opening of a queue ends.
* `Run` - an operation on queues in Redis lists, as far as it has come.

## Main statements

* `serve_carries_clients` - a plan that closes its queues keeps account of its clients.
* `clients_left_open` - the clients that are left open are those that were given up.
-/

namespace Turnstile

open Redis

variable {τ α : Type} [Seconds τ]

/-!
## First commands
-/

/-- Whether a failed command says that the server cannot be reached. -/
def Failure.unreached : Failure τ → Bool
  | .client error =>
      match error.kind.family with
      | .connection | .timeout => true
      | .command | .outside => false
  | .semaphore (.storeConnection ..) _ => true
  | _ => false

omit [Seconds τ] in
theorem asStoreFailure_unreached (endpoint command key : String) (e : Failure τ) :
    ((asStoreFailure endpoint command key e).isA .semaphore &&
      (asStoreFailure endpoint command key e).isA .connection) = e.unreached := by
  cases e with
  | client error =>
      dsimp only [asStoreFailure, Failure.unreached]
      cases error.kind.family with
      | _ => rfl
  | semaphore error cause =>
      cases error with
      | _ => rfl
  | system fault message =>
      cases fault with
      | _ => rfl
  | _ => rfl

/-- Whether nobody hangs up a client after this reply to its first command. -/
def abandons : Except (Failure τ) Unit → Bool
  | .ok _ => false
  | .error e => !e.unreached

/-!
## What becomes of clients
-/

def dials : Plan.Exchange (Premises τ) → Multiset Client
  | ⟨.inl (.dial _), client⟩ => {(client : Client)}
  | _ => 0

def tries : Plan.Exchange (Premises τ) → Multiset Client
  | ⟨.inl (.call client .ping), _⟩ => {client}
  | _ => 0

def hangsUp : Plan.Exchange (Premises τ) → Multiset Client
  | ⟨.inl (.hangUp client), _⟩ => {client}
  | _ => 0

def givesUp : Plan.Exchange (Premises τ) → Multiset Client
  | ⟨.inl (.call client .ping), reply⟩ => if abandons reply then {client} else 0
  | _ => 0

section Accounts

variable (heard : List (Plan.Exchange (Premises τ)))

def dialled : Multiset Client :=
  (heard.map dials).sum

def tried : Multiset Client :=
  (heard.map tries).sum

def hungUp : Multiset Client :=
  (heard.map hangsUp).sum

def givenUp : Multiset Client :=
  (heard.map givesUp).sum

end Accounts

/-- A client is in the hands of an operation from the answer that makes it to the request that hangs
it up.  Its first command takes it away, and the reply gives it back unless it is lost. -/
def clients (τ : Type) [Seconds τ] : Plan.Custody (Premises τ) Client where
  opened
    | .inl (.dial _), client => {(client : Client)}
    | .inl (.call client .ping), reply => if abandons reply then 0 else {client}
    | _, _ => 0
  used
    | .inl (.call client _) => {client}
    | .inl (.hangUp client) => {client}
    | _ => 0
  closed
    | .inl (.call client .ping) => {client}
    | .inl (.hangUp client) => {client}
    | _ => 0
  closed_le r := by
    rcases r with r | r
    · cases r with
      | dial endpoint => exact le_rfl
      | hangUp client => exact le_rfl
      | call client command =>
          cases command with
          | ping => exact le_rfl
          | _ => exact Multiset.zero_le _
    · exact le_rfl

theorem clients_opened (exchange : Plan.Exchange (Premises τ)) :
    (clients τ).opened exchange.1 exchange.2 + givesUp exchange =
      dials exchange + tries exchange := by
  rcases exchange with ⟨r | r, answer⟩
  · cases r with
    | dial endpoint => rfl
    | hangUp client => rfl
    | call client command =>
        cases command with
        | ping =>
            show (if abandons answer then _ else _) + (if abandons answer then _ else _) = _
            cases abandons answer with
            | true => rfl
            | false => rfl
        | _ => rfl
  · rfl

theorem clients_closed (exchange : Plan.Exchange (Premises τ)) :
    (clients τ).closed exchange.1 = tries exchange + hangsUp exchange := by
  rcases exchange with ⟨r | r, answer⟩
  · cases r with
    | dial endpoint => rfl
    | hangUp client => rfl
    | call client command =>
        cases command with
        | _ => rfl
  · rfl

theorem clients_opens (heard : List (Plan.Exchange (Premises τ))) :
    (clients τ).opens heard + givenUp heard = dialled heard + tried heard := by
  unfold Plan.Custody.opens givenUp dialled tried
  rw [← List.sum_map_add, ← List.sum_map_add]
  simp only [clients_opened]

theorem clients_closes (heard : List (Plan.Exchange (Premises τ))) :
    (clients τ).closes heard = tried heard + hungUp heard := by
  unfold Plan.Custody.closes tried hungUp
  rw [← List.sum_map_add]
  simp only [clients_closed]

/-!
## Requests
-/

section Requests

variable {queue : Queue} {frame : Multiset Client}

theorem call_carries_clients {label key : String} {client : Client} {command : Command}
    (hcommand : command ≠ .ping) (h : {client} ≤ frame) :
    ((call label key client command).run.serve toClient).Carries (clients τ) frame
      fun _ held => held = frame := by
  cases command with
  | ping => exact absurd rfl hcommand
  | _ => exact ⟨h, frame, (zero_add _).symm, fun _ => zero_add _⟩

theorem hangUp_carries_clients (client : Client) :
    ((hangUp client).serve toClient).Carries (clients τ) ({client} + frame)
      fun _ held => held = frame :=
  ⟨Multiset.le_add_right _ _, frame, rfl, fun _ => zero_add _⟩

theorem serve_connect (endpoint key : String) :
    (Queue.connect endpoint key).run.serve toClient =
      (.ask (.inl (.dial endpoint)) fun (client : Client) =>
        .ask (.inl (.call client .ping)) fun
          | .ok _ => .pure (.ok ⟨client, key, true⟩)
          | .error e =>
              if e.unreached then
                .ask (.inl (.hangUp client)) fun _ =>
                  .pure (.error (asStoreFailure endpoint "PING" key e))
              else
                .pure (.error (asStoreFailure endpoint "PING" key e)) :
        Plan (Premises τ) τ (Except (Failure τ) Queue)) := by
  apply congrArg (Plan.ask (I := Premises τ) _)
  funext (client : Client)
  apply congrArg (Plan.ask (I := Premises τ) _)
  funext (reply : Except (Failure τ) Unit)
  cases reply with
  | ok _ => rfl
  | error e =>
      show (((if _ then _ else _ : Session τ Unit) >>= fun _ => pure ⟨client, key, true⟩).run.serve
        toClient : Plan (Premises τ) τ (Except (Failure τ) Queue)) = if e.unreached then _ else _
      rw [asStoreFailure_unreached]
      cases e.unreached with
      | true => rfl
      | false => rfl

theorem connect_carries_clients (endpoint key : String) :
    ((Queue.connect endpoint key).run.serve toClient).Carries (clients τ) frame fun ended held =>
      match ended with
      | .ok queue => held = {queue.client} + frame ∧ queue.ownsClient = true
      | .error _ => held = frame := by
  rw [serve_connect]
  refine ⟨Multiset.zero_le _, frame, (zero_add _).symm, fun (client : Client) => ?_⟩
  refine ⟨Multiset.le_add_right _ _, frame, rfl, fun (reply : Except (Failure τ) Unit) => ?_⟩
  cases reply with
  | ok _ => exact ⟨rfl, rfl⟩
  | error e =>
      show Plan.Carries (clients τ) (if e.unreached then _ else _)
        ((if !e.unreached then 0 else {client}) + frame) _
      cases e.unreached with
      | true => exact ⟨Multiset.le_add_right _ _, frame, rfl, fun _ => zero_add _⟩
      | false => exact zero_add _

end Requests

/-!
## Plans that close their queues
-/

structure Backs (queues : Multiset Queue) (held : Multiset Client) : Prop where
  same : held = queues.map Queue.client
  owned : ∀ queue ∈ queues, queue.ownsClient = true

namespace Backs

variable {queues others : Multiset Queue} {held : Multiset Client}

theorem zero : Backs 0 0 :=
  ⟨rfl, fun _ hmem => absurd hmem (Multiset.notMem_zero _)⟩

theorem eq_zero (h : Backs 0 held) : held = 0 :=
  h.same

theorem unchanged (h : Backs queues held) : Backs queues (0 + held) := by
  rw [zero_add]
  exact h

theorem split (h : Backs (queues + others) held) :
    ∃ first second, held = first + second ∧ Backs queues first ∧ Backs others second := by
  exists queues.map Queue.client, others.map Queue.client
  constructor
  · rw [h.same, Multiset.map_add]
  constructor
  · exact ⟨rfl, fun queue hmem => h.owned queue (Multiset.mem_add.mpr (.inl hmem))⟩
  · exact ⟨rfl, fun queue hmem => h.owned queue (Multiset.mem_add.mpr (.inr hmem))⟩

theorem cons {queue : Queue} (h : Backs queues held) (howned : queue.ownsClient = true) :
    Backs ({queue} + queues) ({queue.client} + held) := by
  constructor
  · rw [h.same, Multiset.map_add, Multiset.map_singleton]
  · intro other hmem
    rcases Multiset.mem_add.mp hmem with hother | hother
    · rw [Multiset.mem_singleton.mp hother]
      exact howned
    · exact h.owned other hother

theorem client_le {queue : Queue} (h : Backs queues held) (hmem : {queue} ≤ queues) :
    {queue.client} ≤ held := by
  rw [h.same, Multiset.singleton_le]
  exact Multiset.mem_map_of_mem _ (Multiset.singleton_le.mp hmem)

end Backs

section Served

variable {queues rest : Multiset Queue} {held : Multiset Client}

theorem send_carries_clients {queue : Queue} {command : Command} (hcommand : command ≠ .ping)
    (hqueue : {queue} ≤ queues) (h : Backs queues held) :
    ((queue.send command).run.serve toClient : Plan (Premises τ) τ _).Carries (clients τ) held
      fun _ held' => Backs queues held' := by
  apply (call_carries_clients hcommand (h.client_le hqueue)).mono
  intro _ held' hheld'
  rw [hheld']
  exact h

theorem serveOnPremises_carries_clients (r : (Service Queue τ).Request)
    (hused : (handles Queue τ).used r ≤ (handles Queue τ).closed r + rest)
    (h : Backs ((handles Queue τ).closed r + rest) held) :
    (serveOnPremises r).Carries (clients τ) held fun answer held' =>
      Backs ((handles Queue τ).opened r answer + rest) held' := by
  rcases r with r | r
  · cases r with
    | connect endpoint key =>
        have hrest : Backs rest held := by
          rw [← zero_add rest]
          exact h
        apply (connect_carries_clients endpoint key).mono
        intro (ended : Except (Failure τ) Queue) held' hheld'
        cases ended with
        | ok queue =>
            rw [hheld'.1]
            exact hrest.cons hheld'.2
        | error e =>
            rw [hheld']
            exact h
    | close queue =>
        rcases h.split with ⟨first, second, rfl, hfirst, hsecond⟩
        show Plan.Carries (clients τ)
          ((if queue.ownsClient then hangUp queue.client else pure ()).serve toClient) _ _
        rw [if_pos (hfirst.owned queue (Multiset.mem_singleton_self _)), hfirst.same]
        apply (hangUp_carries_clients queue.client).mono
        intro _ held' hheld'
        show Backs (0 + rest) held'
        rw [hheld', zero_add]
        exact hsecond
    | pop queue count =>
        refine ⟨h.client_le hused, held, (zero_add _).symm, fun reply => ?_⟩
        rcases reply with e | popped
        · exact h.unchanged
        · exact h.unchanged
    | push queue id => exact send_carries_clients Command.noConfusion hused h
    | position queue id => exact send_carries_clients Command.noConfusion hused h
    | expire queue seconds => exact send_carries_clients Command.noConfusion hused h
    | length queue => exact send_carries_clients Command.noConfusion hused h
  · refine ⟨Multiset.zero_le _, held, (zero_add _).symm, fun _ => ?_⟩
    exact h.unchanged

/-- A plan that closes the queues that it opens keeps account of their clients. -/
theorem serve_carries_clients {p : Plan (Service Queue τ) τ α}
    {post : α → Multiset Queue → Prop} (hp : p.Carries (handles Queue τ) queues post)
    (h : Backs queues held) :
    (p.serve serveOnPremises).Carries (clients τ) held fun a held' =>
      ∃ queues', Backs queues' held' ∧ post a queues' := by
  induction p generalizing queues held with
  | pure a => exact ⟨queues, h, hp⟩
  | ask r next ih =>
      rcases hp with ⟨hused, rest, rfl, hnext⟩
      apply (Plan.carries_bind _ _).mpr
      apply (serveOnPremises_carries_clients r hused h).mono
      intro answer held' hheld'
      exact ih answer (hnext answer) hheld'
  | iterate step start next ihStep ih =>
      constructor
      · intro s
        apply (ihStep s (hp.1 s) h).mono
        rintro _ held' ⟨_, hheld', rfl⟩
        rw [hheld'.same, h.same]
      · intro b
        exact ih b (hp.2 b) h
  | both left right next ihLeft ihRight ih =>
      rcases hp with ⟨ofLeft, ofRight, rest, rfl, hleft, hright, hnext⟩
      rcases h.split with ⟨ofLegs, kept, rfl, hlegs, hkept⟩
      rcases hlegs.split with ⟨first, second, rfl, hfirst, hsecond⟩
      refine ⟨first, second, kept, rfl, ?_, ?_, fun results? => ih _ (hnext results?) hkept⟩
      · apply (ihLeft hleft hfirst).mono
        rintro _ held' ⟨_, hheld', rfl⟩
        exact hheld'.eq_zero
      · apply (ihRight hright hsecond).mono
        rintro _ held' ⟨_, hheld', rfl⟩
        exact hheld'.eq_zero
  | within limit body next ihBody ih =>
      rcases hp with ⟨ofBody, rest, rfl, hlate, hbody, hnext⟩
      rcases h.split with ⟨first, second, rfl, hfirst, hsecond⟩
      refine ⟨first, second, rfl, ?_, ?_, fun lapse b? => ih _ _ (hnext lapse b?) hsecond⟩
      · intro hpassed
        have hnone := hlate hpassed
        subst hnone
        exact hfirst.eq_zero
      · apply (ihBody hbody hfirst).mono
        rintro _ held' ⟨_, hheld', rfl⟩
        exact hheld'.eq_zero

end Served

/-!
## Openings
-/

/-- The ways in which the opening of a queue ends, with what was asked and answered. -/
inductive Connecting (endpoint key : String) :
    List (Plan.Exchange (Premises τ)) → Except (Failure τ) Queue → Prop where
  | opened (client : Client) :
      Connecting endpoint key
        [⟨.inl (.dial endpoint), client⟩, ⟨.inl (.call client .ping), .ok ()⟩]
        (.ok ⟨client, key, true⟩)
  | refused (client : Client) (e : Failure τ) (unreached : e.unreached = true) :
      Connecting endpoint key
        [⟨.inl (.dial endpoint), client⟩, ⟨.inl (.call client .ping), .error e⟩,
          ⟨.inl (.hangUp client), ()⟩]
        (.error (asStoreFailure endpoint "PING" key e))
  | abandoned (client : Client) (e : Failure τ) (unreached : e.unreached = false) :
      Connecting endpoint key
        [⟨.inl (.dial endpoint), client⟩, ⟨.inl (.call client .ping), .error e⟩]
        (.error (asStoreFailure endpoint "PING" key e))

theorem connecting_iff {endpoint key : String} {heard : List (Plan.Exchange (Premises τ))}
    {ended : Except (Failure τ) Queue} :
    Plan.Course.Leads ⟨[], onPremises (Service.connect endpoint key)⟩ ⟨heard, .pure ended⟩ ↔
      Connecting endpoint key heard ended := by
  have hplan : onPremises (Service.connect endpoint key : Operation Queue τ Queue) =
      (Queue.connect endpoint key).run.serve toClient :=
    Plan.bind_pure _
  rw [hplan, serve_connect]
  apply Plan.Course.leads_ask_iff.trans
  constructor
  · rintro ⟨client, hclient⟩
    rcases Plan.Course.leads_ask_iff.mp hclient with ⟨reply, hreply⟩
    rcases reply with e | done
    · change Plan.Course.Leads ⟨_, if e.unreached then _ else _⟩ _ at hreply
      cases hunreached : e.unreached with
      | true =>
          rw [hunreached, if_pos rfl] at hreply
          rcases Plan.Course.leads_ask_iff.mp hreply with ⟨_, hhungUp⟩
          rcases Plan.Course.leads_pure_iff.mp hhungUp with ⟨rfl, rfl⟩
          exact .refused client e hunreached
      | false =>
          rw [hunreached, if_neg Bool.false_ne_true] at hreply
          rcases Plan.Course.leads_pure_iff.mp hreply with ⟨rfl, rfl⟩
          exact .abandoned client e hunreached
    · rcases Plan.Course.leads_pure_iff.mp hreply with ⟨rfl, rfl⟩
      exact .opened client
  · rintro (⟨client⟩ | ⟨client, e, hunreached⟩ | ⟨client, e, hunreached⟩)
    · exact ⟨client, Plan.Course.leads_ask_iff.mpr ⟨Except.ok (), .refl⟩⟩
    · refine ⟨client, Plan.Course.leads_ask_iff.mpr ⟨Except.error e, ?_⟩⟩
      change Plan.Course.Leads ⟨_, if e.unreached then _ else _⟩ _
      rw [hunreached, if_pos rfl]
      exact Plan.Course.leads_ask_iff.mpr ⟨(), .refl⟩
    · refine ⟨client, Plan.Course.leads_ask_iff.mpr ⟨Except.error e, ?_⟩⟩
      change Plan.Course.Leads ⟨_, if e.unreached then _ else _⟩ _
      rw [hunreached, if_neg Bool.false_ne_true]
      exact .refl

theorem closing_iff {queue : Queue} {heard : List (Plan.Exchange (Premises τ))}
    (howned : queue.ownsClient = true) :
    Plan.Course.Leads ⟨[], (Service.close queue).serve serveOnPremises⟩ ⟨heard, .pure ()⟩ ↔
      heard = [⟨.inl (.hangUp queue.client), ()⟩] := by
  have hplan : (Service.close queue).serve serveOnPremises =
      (.ask (.inl (.hangUp queue.client)) .pure : Plan (Premises τ) τ Unit) := by
    show ((if queue.ownsClient then hangUp queue.client else pure ()).serve toClient).bind _ = _
    rw [if_pos howned]
    rfl
  rw [hplan]
  apply Plan.Course.leads_ask_iff.trans
  constructor
  · rintro ⟨_, hended⟩
    exact (Plan.Course.leads_pure_iff.mp hended).1
  · rintro rfl
    exact ⟨(), .refl⟩

/-!
## Operations
-/

/-- An operation on queues in Redis lists, as far as it has come, with any answers. -/
structure Run (τ : Type) [Seconds τ] where
  {Result : Type}
  operation : Operation Queue τ Result
  opens : Opens operation
  course : Plan.Course (Premises τ) τ (Except (Failure τ) Result)
  leads : Plan.Course.Leads ⟨[], onPremises operation⟩ course

namespace Run

def heard (run : Run τ) : List (Plan.Exchange (Premises τ)) :=
  run.course.heard

def Ended (run : Run τ) : Prop :=
  ∃ outcome, run.course.plan = .pure outcome

theorem accounted (run : Run τ) :
    ∃ held, Plan.Accounted (clients τ) (fun _ held' => held' = 0) run.course held := by
  apply Plan.Carries.accounted _ run.leads
  apply (serve_carries_clients run.opens.leaves .zero).mono
  rintro _ held' ⟨_, hbacks, rfl⟩
  exact hbacks.eq_zero

theorem uses_only_open (run : Run τ) {before after : List (Plan.Exchange (Premises τ))}
    {exchange : Plan.Exchange (Premises τ)} (h : run.heard = before ++ exchange :: after) :
    hungUp before + givenUp before + (clients τ).used exchange.1 ≤ dialled before := by
  rcases run.accounted with ⟨held, haccounted⟩
  have hused := haccounted.respected before exchange after h
  rw [clients_closes] at hused
  apply (Multiset.add_le_add_iff_left (s := tried before)).mp
  calc tried before + (hungUp before + givenUp before + (clients τ).used exchange.1)
      = tried before + hungUp before + (clients τ).used exchange.1 + givenUp before := by abel
    _ ≤ (clients τ).opens before + givenUp before := Multiset.add_le_add_right hused
    _ = tried before + dialled before := by rw [clients_opens, add_comm]

/-- An operation that has ended has hung up or given up each client that it made. -/
theorem dialled_eq (run : Run τ) (h : run.Ended) :
    dialled run.heard = hungUp run.heard + givenUp run.heard := by
  rcases run.accounted with ⟨held, haccounted⟩
  rcases h with ⟨outcome, hended⟩
  have hcarries := haccounted.carries
  rw [hended] at hcarries
  have hheld : held = 0 := hcarries
  have hbalance := haccounted.balance
  rw [hheld, add_zero, clients_closes] at hbalance
  have hopens := clients_opens run.course.heard
  rw [hbalance, add_assoc, add_comm (dialled _)] at hopens
  exact (add_left_cancel hopens).symm

end Run

theorem dialled_eq_of_ended {runs : List (Run τ)} {heard : List (Plan.Exchange (Premises τ))}
    (hheard : heard.Perm (runs.flatMap Run.heard)) (h : ∀ run ∈ runs, run.Ended) :
    dialled heard = hungUp heard + givenUp heard := by
  -- No sum depends on the order in which operations are heard.
  unfold dialled hungUp givenUp
  rw [(hheard.map dials).sum_eq, (hheard.map hangsUp).sum_eq, (hheard.map givesUp).sum_eq]
  clear hheard
  induction runs with
  | nil => rfl
  | cons run rest ih =>
      have hrun : (run.heard.map dials).sum =
          (run.heard.map hangsUp).sum + (run.heard.map givesUp).sum :=
        run.dialled_eq (h run List.mem_cons_self)
      have hrest := ih fun other hmem => h other (List.mem_cons_of_mem _ hmem)
      simp only [List.flatMap_cons, List.map_append, List.sum_append]
      rw [hrun, hrest]
      abel

/-- Opening a queue makes one client.  A queue that is opened has it and hangs it up when it is
closed, and not before.  If the first command fails the client is hung up at once if the failure
says that the server cannot be reached, and otherwise, and after an interruption, it is given up
without being hung up.

A client is used only while it is open.  When no operation is in progress the clients that were made
are those that were hung up, each once, and those that were given up: these are left open. -/
theorem clients_left_open :
    (∀ (endpoint key : String) (heard : List (Plan.Exchange (Premises τ)))
      (ended : Except (Failure τ) Queue),
      Plan.Course.Leads ⟨[], onPremises (Service.connect endpoint key)⟩ ⟨heard, .pure ended⟩ ↔
        Connecting endpoint key heard ended) ∧
      (∀ (queue : Queue) (heard : List (Plan.Exchange (Premises τ))), queue.ownsClient = true →
        (Plan.Course.Leads ⟨[], (Service.close queue).serve serveOnPremises⟩ ⟨heard, .pure ()⟩ ↔
          heard = [⟨.inl (.hangUp queue.client), ()⟩])) ∧
      (∀ (run : Run τ) (before after : List (Plan.Exchange (Premises τ)))
        (exchange : Plan.Exchange (Premises τ)), run.heard = before ++ exchange :: after →
        hungUp before + givenUp before + (clients τ).used exchange.1 ≤ dialled before) ∧
      ∀ (runs : List (Run τ)) (heard : List (Plan.Exchange (Premises τ))),
        heard.Perm (runs.flatMap Run.heard) → (∀ run ∈ runs, run.Ended) →
          dialled heard = hungUp heard + givenUp heard := by
  constructor
  · exact fun endpoint key heard ended => connecting_iff
  constructor
  · exact fun queue heard howned => closing_iff howned
  constructor
  · exact fun run before after exchange h => run.uses_only_open h
  · exact fun runs heard hheard h => dialled_eq_of_ended hheard h

/-!
## An interrupted visitor
-/

namespace Run

/-- Surroundings in which every first command has the same reply and all else goes well.  Clients
are numbered from `number` on. -/
def hallway (number : Nat) (reply : Except (Failure Float) Unit) :
    Plan.Surroundings (Premises Float)
  | heard, .inl (.dial endpoint) => Client.mk (number + heard.length) endpoint {}
  | _, .inl (.call _ .ping) => reply
  | _, .inl (.call _ (.rpush ..)) => Except.ok (1 : Nat)
  | _, .inl (.call _ (.lpos ..)) => Except.ok (some 0 : Option Nat)
  | _, .inl (.call _ (.lpop ..)) => Except.ok (none : Option (List Item))
  | _, .inl (.call _ (.expire ..)) => Except.ok true
  | _, .inl (.call _ (.llen _)) => Except.ok (1 : Nat)
  | _, .inl (.hangUp _) => ()
  | _, .inr (.estimate _ _ base) => Except.ok base
  | _, .inr (.sleep _) => Except.ok ()
  | _, .inr .now => (0 : Float)
  | _, .inr (.record ..) => ()
  | _, .inr (.announce _) => Except.ok ()
  | _, .inr .freshId => "1"
  | _, .inr (.hold _) => ()
  | _, .inr .takeOldest => (none : Option (Ticket Float))

def visit (number : Nat) (reply : Except (Failure Float) Unit) : Run Float where
  operation := Cooperative.acquire Opens.wicket none
  opens := .cooperativeAcquire Opens.wicket none
  course := (Plan.Course.mk [] (onPremises (Cooperative.acquire Opens.wicket none))).after
    (hallway number reply) 40
  leads := Plan.Course.leads_after (hallway number reply) _ 40

/-- The first of two visitors is interrupted during its first command: its client is left open. -/
theorem clients_left_open_after_visits :
    (∀ run ∈ [visit 0 (.error .interrupted), visit 10 (.ok ())], run.Ended) ∧
      ∃ heard, heard.Perm ([visit 0 (.error .interrupted), visit 10 (.ok ())].flatMap Run.heard) ∧
        (dialled heard).map Client.number = {2, 12} ∧
        (hungUp heard).map Client.number = {12} ∧
        (givenUp heard).map Client.number = {2} ∧
        dialled heard = hungUp heard + givenUp heard := by
  have hresults : ∀ run ∈ [visit 0 (.error .interrupted), visit 10 (.ok ())],
      run.course.plan.result?.isSome = true := by
    decide +kernel
  have hended : ∀ run ∈ [visit 0 (.error .interrupted), visit 10 (.ok ())], run.Ended := by
    intro run hmem
    rcases Option.isSome_iff_exists.mp (hresults run hmem) with ⟨outcome, houtcome⟩
    exact ⟨outcome, Plan.eq_of_result? houtcome⟩
  constructor
  · exact hended
  · refine ⟨_, .refl _, by decide +kernel, by decide +kernel, by decide +kernel, ?_⟩
    exact clients_left_open.2.2.2 _ _ (.refl _) hended

end Run
end Turnstile
