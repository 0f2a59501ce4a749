import Turnstile.Proofs.Crowd.Orderly

/-!
# What a crowd does to its register

Every step of a crowd is a move of its register.  This is where the conduct of the callers is
used: a call makes its requests in the standings in which its terms allow them, and so each answer
changes the register in one way only.

## Main statements

* `Crowd.Conducted.step` - callers keep to their terms, and a step is a move of the register.
* `Crowd.Conducted.leads` - the same for any number of steps.
-/

namespace Turnstile

open Redis

variable {τ : Type} [Seconds τ]

/-- The failures of a venue refuse no caller.  Whatever the store or its client raises is such a
failure, unless it is a timeout of the language or an interruption. -/
def Venue.Moderate (venue : Venue τ) : Prop :=
  ∀ e, venue.faults e → e.Ordinary

def Venue.Lossy (venue : Venue τ) : Prop :=
  ∃ e, venue.faults e

/-!
## Commands
-/

def Redis.Command.removals : Command → Nat
  | .lpop .. => 1
  | _ => 0

theorem Standing.ofQueue_of_allows {standing : Standing} {key : String} {client : Client}
    {command : Command}
    (hallows : standing.allows key (.inl (.call client command) : (Premises τ).Request)) :
    command.OfQueue key := by
  cases command with
  | ping => trivial
  | rpush key' id => exact hallows.1
  | lpos key' id => exact hallows.1
  | lpop key' count => exact ⟨hallows.1, hallows.2.1⟩
  | expire key' seconds => exact ⟨hallows.1, hallows.2.1⟩
  | llen key' => exact hallows.elim

namespace Crowd

variable {venue : Venue τ} {crowd crowd' : Crowd τ}

/-!
## Callers that keep to their terms
-/

/-- What holds of the users of a queue and their calls, whatever was answered so far. -/
structure Conducted (venue : Venue τ) (crowd : Crowd τ) : Prop where
  isList : venue.queueKey ∉ crowd.keys.others
  fits : ∀ user ∈ crowd.users, user.semaphore.Fits venue.queueKey venue.capacity
  slots : ∀ user ∈ crowd.users, ∀ ticket ∈ user.held, ticket.queueKey = venue.queueKey
  meets : ∀ caller ∈ crowd.callers,
    caller.plan.Meets (Bearing.terms venue.queueKey venue.capacity caller.limit) caller.bearing
      Bearing.Ended

theorem Conducted.lists (h : Conducted venue crowd) :
    crowd.keys.Lists venue.queueKey (crowd.keys.items venue.queueKey) :=
  ⟨h.isList, rfl⟩

theorem Answers.expects {caller : Caller τ} {r : (Premises τ).Request}
    {answer : (Premises τ).Answer r} (h : Answers venue crowd caller r answer crowd')
    (hconducted : Conducted venue crowd) (hmoderate : venue.Moderate) :
    caller.bearing.expects venue.queueKey caller.limit r answer := by
  cases h with
  | dial endpoint client => trivial
  | hangUp client => trivial
  | call client executed => exact fun e he => executed.ordinary hmoderate he
  | estimate position capacity base faults => exact fun e he => hmoderate e (faults e he)
  | sleep duration faults => exact fun e he => hmoderate e (faults e he)
  | now inTime faults => exact inTime
  | record mode entry => trivial
  | freshId fresh apart => trivial
  | hold ticket split place => trivial
  | @takeOldest before after user ticket rest split place oldest =>
      intro ticket' hticket
      cases hticket
      refine hconducted.slots user ?_ ticket ?_
      · rw [split]
        exact List.mem_append_right _ (List.mem_cons_self ..)
      · rw [oldest]
        exact List.mem_cons_self ..
  | noneHeld split place empty => exact fun ticket hticket => nomatch hticket

/-!
## Registers
-/

def register (venue : Venue τ) (crowd : Crowd τ) (removed : Nat) : Register where
  line := crowd.keys.items venue.queueKey
  removed := removed
  entries := crowd.entries
  admissions := crowd.admissions
  standings := crowd.callers.map fun caller => caller.bearing.standing
  held := crowd.held

abbrev Moves (venue : Venue τ) : Register → Register → Prop :=
  Register.Moves venue.capacity venue.initial venue.Lossy

def resumed (venue : Venue τ) (crowd : Crowd τ) (removed : Nat) (before after : List (Caller τ))
    (old new : Standing) : Register :=
  (crowd.register venue removed).become (before.map fun caller => caller.bearing.standing)
    (after.map fun caller => caller.bearing.standing) old new

theorem register_resume {before after : List (Caller τ)} {caller caller' : Caller τ}
    (removed : Nat) :
    (crowd.resume before after caller caller').register venue removed =
      crowd.resumed venue removed before after caller.bearing.standing
        caller'.bearing.standing := by
  simp [register, resumed, resume, Register.become, held]

theorem register_split (venue : Venue τ) {before after : List (Caller τ)} {caller : Caller τ}
    (split : crowd.callers = before ++ caller :: after) (removed : Nat) :
    (crowd.register venue removed).standings =
      (before.map fun caller => caller.bearing.standing) ++ caller.bearing.standing ::
        after.map fun caller => caller.bearing.standing := by
  simp [register, split]

theorem moves_of_same {keys : Keyspace τ} {ids : List String} {before after : List (Caller τ)}
    {old new : Standing} {removed removed' : Nat} {reg : Register}
    (hitems : keys.items venue.queueKey = crowd.keys.items venue.queueKey) (hids : ids = [])
    (hremoved : removed' = removed)
    (h : Moves venue reg (crowd.resumed venue removed before after old new)) :
    Moves venue reg (({ crowd with
        keys := keys
        entries := crowd.entries ++ ids } : Crowd τ).resumed venue removed' before after
      old new) := by
  unfold resumed register at h ⊢
  rw [hitems, hids, hremoved, List.append_nil]
  exact h

theorem moves_rest {before after : List (Caller τ)} {caller : Caller τ} {standing : Standing}
    (split : crowd.callers = before ++ caller :: after)
    (hstanding : standing = caller.bearing.standing) (removed : Nat) :
    Moves venue (crowd.register venue removed)
      (crowd.resumed venue removed before after caller.bearing.standing standing) := by
  have hsame : crowd.resumed venue removed before after caller.bearing.standing standing =
      crowd.register venue removed := by
    have hadmission : caller.bearing.standing.admission standing = [] := by
      rw [hstanding]
      unfold Standing.admission
      split <;> simp
    unfold resumed Register.become
    rw [hadmission, hstanding, ← register_split venue split removed]
    simp [register]
  rw [hsame]
  exact .rest

theorem moves_of_executed {before after : List (Caller τ)} {caller : Caller τ} {client : Client}
    {command : Command} {took : Bool} {reply : Except (Failure τ) command.Reply}
    {keys : Keyspace τ} (h : Keyspace.Executed venue.faults crowd.keys command took reply keys)
    (hallows : caller.bearing.standing.allows venue.queueKey
      (.inl (.call client command) : (Premises τ).Request))
    (hconducted : Conducted venue crowd) (split : crowd.callers = before ++ caller :: after)
    (removed : Nat) :
    Moves venue (crowd.register venue removed)
      (({ crowd with
          keys := keys
          entries := crowd.entries ++ if took then command.entry else [] } : Crowd τ).resumed venue
        (if took then removed + command.removals else removed) before after caller.bearing.standing
        (caller.bearing.after venue.capacity (.inl (.call client command)) reply).standing) := by
  have hsplit := register_split venue split removed
  have hlists := h.lists hconducted.lists (Standing.ofQueue_of_allows hallows)
  -- The command tells the standing of its caller, and the execution tells the move.
  cases command with
  | ping =>
      have hitems : keys.items venue.queueKey = crowd.keys.items venue.queueKey := by
        rw [hlists.items]
        cases took <;> rfl
      refine moves_of_same hitems ?_ ?_ (moves_rest split rfl removed)
      · cases took <;> rfl
      · cases took <;> rfl
  | rpush key id =>
      rcases hallows with ⟨rfl, hnamed⟩
      rw [hnamed] at hsplit ⊢
      cases h with
      | answered decodes time =>
          have hreply : (crowd.keys.run decodes time (.rpush venue.queueKey id)).1.reply =
              .ok ((crowd.keys.items venue.queueKey).length + 1) :=
            hconducted.lists.rpush_reply id
          rw [hreply]
          unfold resumed register
          rw [hlists.items]
          exact .enter hsplit
      | refused fault =>
          exact moves_of_same rfl rfl rfl (.fail hsplit rfl ⟨_, fault⟩)
      | lost fault decodes time =>
          unfold resumed register
          rw [hlists.items]
          exact .enterUnseen hsplit ⟨_, fault⟩
  | lpos key id =>
      rcases hallows with ⟨rfl, hwaiting⟩
      rw [hwaiting] at hsplit ⊢
      cases h with
      | answered decodes time =>
          have hreply : (crowd.keys.run decodes time (.lpos venue.queueKey id)).1.reply =
              .ok ((crowd.keys.items venue.queueKey).idxOf? id.toUTF8) :=
            hconducted.lists.lpos_reply id
          rw [hreply]
          exact moves_of_same rfl rfl rfl (.look hsplit)
      | refused fault =>
          exact moves_of_same rfl rfl rfl (.fail hsplit rfl ⟨_, fault⟩)
      | lost fault decodes time =>
          exact moves_of_same rfl rfl rfl (.fail hsplit rfl ⟨_, fault⟩)
  | lpop key count =>
      rcases hallows with ⟨rfl, rfl, hreturning⟩
      rw [hreturning] at hsplit ⊢
      cases took with
      | true =>
          unfold resumed register
          rw [hlists.items, show crowd.entries ++ (if true = true then
            (Command.lpop venue.queueKey 1).entry else []) = crowd.entries from List.append_nil _]
          exact .remove hsplit
      | false =>
          cases h with
          | refused fault => exact moves_of_same rfl rfl rfl (.removeNone hsplit ⟨_, fault⟩)
  | expire key seconds =>
      have hitems : keys.items venue.queueKey = crowd.keys.items venue.queueKey := by
        rw [hlists.items]
        cases took <;> rfl
      refine moves_of_same hitems ?_ ?_ (moves_rest split rfl removed)
      · cases took <;> rfl
      · cases took <;> rfl
  | llen key => exact hallows.elim

theorem held_split {before after : List (User τ)} {user : User τ}
    (split : crowd.users = before ++ user :: after) :
    crowd.held = (before.flatMap fun user => user.held).length +
      (after.flatMap fun user => user.held).length + user.held.length := by
  unfold held
  rw [split, List.flatMap_append, List.flatMap_cons, List.length_append, List.length_append]
  omega

theorem Answers.moves {before after : List (Caller τ)} {caller : Caller τ}
    {r : (Premises τ).Request} {answer : (Premises τ).Answer r}
    (h : Answers venue crowd caller r answer crowd')
    (hallows : caller.bearing.standing.allows venue.queueKey r)
    (hconducted : Conducted venue crowd) (split : crowd.callers = before ++ caller :: after)
    (removed : Nat) :
    ∃ removed', Moves venue (crowd.register venue removed)
      (crowd'.resumed venue removed' before after caller.bearing.standing
        (caller.bearing.after venue.capacity r answer).standing) := by
  have hsplit := register_split venue split removed
  cases h with
  | dial endpoint client => exact ⟨removed, moves_rest split rfl removed⟩
  | hangUp client => exact ⟨removed, moves_rest split rfl removed⟩
  | call client executed => exact ⟨_, moves_of_executed executed hallows hconducted split removed⟩
  | @estimate position capacity base reply faults =>
      refine ⟨removed, ?_⟩
      cases reply with
      | ok duration => exact moves_rest split rfl removed
      | error e =>
          rcases hallows with ⟨id, hwaiting⟩
          show Moves venue _
            (crowd.resumed venue removed before after _ caller.bearing.fail.standing)
          rw [Bearing.fail_of_waiting hwaiting]
          rw [hwaiting] at hsplit ⊢
          exact .fail hsplit rfl ⟨e, faults e rfl⟩
  | @sleep duration reply faults =>
      refine ⟨removed, ?_⟩
      cases reply with
      | ok _ => exact moves_rest split rfl removed
      | error e =>
          rcases hallows with ⟨id, hwaiting⟩
          show Moves venue _
            (crowd.resumed venue removed before after _ caller.bearing.fail.standing)
          rw [Bearing.fail_of_waiting hwaiting]
          rw [hwaiting] at hsplit ⊢
          exact .fail hsplit rfl ⟨e, faults e rfl⟩
  | @now time inTime faults =>
      refine ⟨removed, ?_⟩
      show Moves venue _ (crowd.resumed venue removed before after _
        (caller.bearing.told time).standing)
      rcases caller.bearing.told_cases time with hsame | ⟨id, hid, htold, since, e, hsince, he⟩
      · exact moves_rest split hsame removed
      · rw [htold]
        have hnamed : ∀ id, caller.bearing.standing ≠ .named id := by
          intro id' hnamed
          rw [hnamed] at hid
          rcases hid with hid | hid <;> cases hid
        refine .fail hsplit ?_ ⟨_, faults hnamed since hsince e he⟩
        rcases hid with hid | hid
        · rw [hid]
          rfl
        · rw [hid]
          rfl
  | record mode entry => exact ⟨removed, moves_rest split rfl removed⟩
  | @freshId id fresh apart =>
      refine ⟨removed, ?_⟩
      rw [show caller.bearing.standing = .arriving from hallows] at hsplit ⊢
      refine .name hsplit ?_ apart
      intro hmem
      rcases List.mem_filterMap.mp hmem with ⟨standing, hstanding, hid⟩
      rcases List.mem_map.mp hstanding with ⟨other, hother, rfl⟩
      exact fresh other hother hid
  | @hold ticket before' after' user split' place =>
      rcases hallows with ⟨_, hadmitted⟩
      refine ⟨removed, ?_⟩
      rw [hadmitted] at hsplit ⊢
      unfold resumed register
      have hheld := held_split split'
      rw [@held_split _ _ { crowd with
        users := before' ++ { user with held := user.held ++ [ticket] } :: after' } _ _ _ rfl,
        List.length_append, List.length_singleton, ← Nat.add_assoc, ← hheld]
      exact .settle hsplit
  | @takeOldest before' after' user ticket rest split' place oldest =>
      refine ⟨removed, ?_⟩
      rw [show caller.bearing.standing = .leaving from hallows] at hsplit ⊢
      have hheld := held_split split'
      rw [oldest, List.length_cons, ← Nat.add_assoc] at hheld
      unfold resumed register
      rw [@held_split _ _ { crowd with
        users := before' ++ { user with held := rest } :: after' } _ _ _ rfl]
      exact .take hsplit hheld
  | noneHeld split' place empty =>
      refine ⟨removed, ?_⟩
      rw [show caller.bearing.standing = .leaving from hallows] at hsplit ⊢
      exact .takeNone hsplit

/-!
## Steps
-/

theorem Answers.conducted {caller : Caller τ} {r : (Premises τ).Request}
    {answer : (Premises τ).Answer r} (h : Answers venue crowd caller r answer crowd')
    (hallows : caller.bearing.standing.allows venue.queueKey r)
    (hconducted : Conducted venue crowd) : Conducted venue crowd' := by
  cases h with
  | call client executed =>
      have hlists := executed.lists hconducted.lists (Standing.ofQueue_of_allows hallows)
      exact ⟨hlists.isList, hconducted.fits, hconducted.slots, hconducted.meets⟩
  | @hold ticket before after user split place =>
      refine ⟨hconducted.isList, ?_, ?_, hconducted.meets⟩
      · exact forall_mem_replace split hconducted.fits (hconducted.fits user (mem_of_split split))
      · have hslots := hconducted.slots user (mem_of_split split)
        refine forall_mem_replace split hconducted.slots ?_
        intro other hother
        rcases List.mem_append.mp hother with hold | hnew
        · exact hslots other hold
        · rw [List.mem_singleton.mp hnew]
          exact hallows.1
  | @takeOldest before after user ticket rest split place oldest =>
      refine ⟨hconducted.isList, ?_, ?_, hconducted.meets⟩
      · exact forall_mem_replace split hconducted.fits (hconducted.fits user (mem_of_split split))
      · have hslots := hconducted.slots user (mem_of_split split)
        refine forall_mem_replace split hconducted.slots ?_
        intro other hother
        refine hslots other ?_
        rw [oldest]
        exact List.mem_cons_of_mem _ hother
  | _ => exact hconducted

theorem standing?_split {before after : List (Caller τ)} {caller : Caller τ}
    (split : crowd.callers = before ++ caller :: after) :
    crowd.standing? before.length = some caller.bearing.standing := by
  unfold standing?
  rw [split, List.getElem?_append_right (Nat.le_refl _), Nat.sub_self]
  rfl

theorem standing?_eq (number : Nat) :
    crowd.standing? number =
      (crowd.callers.map fun caller => caller.bearing.standing)[number]? := by
  unfold standing?
  rw [List.getElem?_map]

theorem Step.standing? {number : Nat} {standing : Standing} (hstep : Step venue crowd crowd')
    (hstanding : crowd.standing? number = some standing) :
    crowd'.standing? number = some standing ∨
      ∃ r answer, Hears venue crowd number r answer crowd' := by
  rw [standing?_eq] at hstanding
  rw [standing?_eq]
  cases hstep with
  | acquire limit here =>
      left
      rw [List.map_append, List.getElem?_append_left (List.getElem?_eq_some_iff.mp hstanding).1]
      exact hstanding
  | release here =>
      left
      rw [List.map_append, List.getElem?_append_left (List.getElem?_eq_some_iff.mp hstanding).1]
      exact hstanding
  | turn split turns =>
      left
      rw [split] at hstanding
      rw [List.map_append, List.map_cons] at hstanding ⊢
      exact hstanding
  | @hears number' r answer _ hears =>
      by_cases hnumber : number' = number
      · subst hnumber
        exact Or.inr ⟨r, answer, hears⟩
      · left
        cases hears with
        | @hears before after caller plan world split place asks answers =>
            rw [split, List.map_append, List.map_cons] at hstanding
            unfold resume
            rw [List.map_append, List.map_cons, ← hstanding]
            apply getElem?_replaced
            rw [List.length_map, place]
            exact hnumber
  | elsewhere keys list others => exact Or.inl hstanding

theorem exists_of_mem_standings {standing : Standing} {removed : Nat}
    (h : standing ∈ (crowd.register venue removed).standings) :
    ∃ number, crowd.standing? number = some standing := by
  rcases List.mem_iff_getElem?.mp h with ⟨number, hnumber⟩
  refine ⟨number, ?_⟩
  rw [standing?_eq]
  exact hnumber

theorem mem_standings {number : Nat} {standing : Standing}
    (h : crowd.standing? number = some standing) (removed : Nat) :
    standing ∈ (crowd.register venue removed).standings := by
  unfold standing? at h
  rcases Option.map_eq_some_iff.mp h with ⟨caller, hcaller, rfl⟩
  exact List.mem_map_of_mem (List.mem_of_getElem? hcaller)

theorem Hears.standing? {number : Nat} {r : (Premises τ).Request} {answer : (Premises τ).Answer r}
    (h : Hears venue crowd number r answer crowd') :
    ∃ φ : Bearing τ, crowd.standing? number = some φ.standing ∧
      crowd'.standing? number = some (φ.after venue.capacity r answer).standing := by
  cases h with
  | @hears before after caller plan world split place asks answers =>
      rw [← place]
      refine ⟨caller.bearing, standing?_split split, ?_⟩
      exact @standing?_split _ _ _ before after { caller with
        bearing := caller.bearing.after venue.capacity r answer
        plan := plan } rfl

theorem Hears.executed {number : Nat} {client : Client} {command : Command}
    {reply : Except (Failure τ) command.Reply}
    (h : Hears venue crowd number (.inl (.call client command)) reply crowd') :
    ∃ took keys, Keyspace.Executed venue.faults crowd.keys command took reply keys := by
  cases h with
  | hears split place asks answers =>
      cases answers with
      | call _ executed => exact ⟨_, _, executed⟩

theorem Hears.allows {number : Nat} {r : (Premises τ).Request} {answer : (Premises τ).Answer r}
    (h : Hears venue crowd number r answer crowd') (hconducted : Conducted venue crowd) :
    ∃ standing, crowd.standing? number = some standing ∧ standing.allows venue.queueKey r := by
  cases h with
  | @hears before after caller plan world split place asks answers =>
      refine ⟨caller.bearing.standing, ?_, ((hconducted.meets _ (mem_of_split split)).asks asks).1⟩
      rw [← place]
      exact standing?_split split

theorem Hears.conducted {number : Nat} {r : (Premises τ).Request} {answer : (Premises τ).Answer r}
    (h : Hears venue crowd number r answer crowd') (hconducted : Conducted venue crowd)
    (hmoderate : venue.Moderate) : Conducted venue crowd' := by
  cases h with
  | @hears before after caller plan world split place asks answers =>
      have hask := (hconducted.meets _ (mem_of_split split)).asks asks
      have hworld := answers.conducted hask.1 hconducted
      refine ⟨hworld.isList, hworld.fits, hworld.slots, ?_⟩
      refine forall_mem_replace split hconducted.meets ?_
      exact hask.2 answer (answers.expects hconducted hmoderate) rfl

theorem Hears.moves {number : Nat} {r : (Premises τ).Request} {answer : (Premises τ).Answer r}
    (h : Hears venue crowd number r answer crowd') (hconducted : Conducted venue crowd)
    (removed : Nat) :
    ∃ removed', Moves venue (crowd.register venue removed) (crowd'.register venue removed') := by
  cases h with
  | @hears before after caller plan world split place asks answers =>
      have hask := (hconducted.meets _ (mem_of_split split)).asks asks
      rcases answers.moves hask.1 hconducted split removed with ⟨removed', hmoves⟩
      refine ⟨removed', ?_⟩
      rw [register_resume]
      exact hmoves

theorem acquire_meets {user : User τ} (hfits : user.semaphore.Fits venue.queueKey venue.capacity)
    (limit : Option τ) :
    (onPremises (user.acquire limit)).Meets
      (Bearing.terms venue.queueKey venue.capacity limit) ⟨.arriving, none⟩ Bearing.Ended := by
  have hended : ∀ {operation : Operation Queue τ Unit},
      Action.Keeps serveOnPremises operation
        (Bearing.terms venue.queueKey venue.capacity limit) ⟨.arriving, none⟩
        (fun φ _ => ∃ id, φ.standing = .settled id) (fun φ _ => φ.standing.Fallen) →
      (onPremises operation).Meets (Bearing.terms venue.queueKey venue.capacity limit)
        ⟨.arriving, none⟩ Bearing.Ended :=
    fun hkeeps => hkeeps.mono (fun _ _ h => Or.inl h) fun _ _ h => Or.inl h
  unfold User.acquire
  cases user.mode with
  | blocking => exact hended (Blocking.acquire_keeps hfits rfl)
  | cooperative => exact hended (Cooperative.acquire_keeps hfits rfl)

theorem release_meets (venue : Venue τ) (user : User τ) (limit : Option τ) :
    (onPremises user.release).Meets (Bearing.terms venue.queueKey venue.capacity limit)
      ⟨.leaving, none⟩ Bearing.Ended := by
  have hended : ∀ {operation : Operation Queue τ Unit},
      Action.Keeps serveOnPremises operation
        (Bearing.terms venue.queueKey venue.capacity limit) ⟨.leaving, none⟩
        (fun φ _ => φ.standing.Returned)
        (fun φ _ => φ.standing = .emptyHanded ∨ φ.standing.Returned) →
      (onPremises operation).Meets (Bearing.terms venue.queueKey venue.capacity limit)
        ⟨.leaving, none⟩ Bearing.Ended :=
    fun hkeeps => hkeeps.mono (fun _ _ h => Or.inr h) fun _ _ h => Or.inr h
  unfold User.release
  cases user.mode with
  | blocking => exact hended (Blocking.release_keeps rfl)
  | cooperative => exact hended (Cooperative.release_keeps rfl)

/-- Callers keep to their terms, and a step is a move of the register. -/
theorem Conducted.step (h : Conducted venue crowd) (hmoderate : venue.Moderate)
    (hstep : Step venue crowd crowd') (removed : Nat) :
    Conducted venue crowd' ∧
      ∃ removed', Moves venue (crowd.register venue removed) (crowd'.register venue removed') := by
  cases hstep with
  | @acquire number user limit here =>
      have hfits := h.fits user (List.mem_of_getElem? here)
      refine ⟨⟨h.isList, h.fits, h.slots, ?_⟩, removed, ?_⟩
      · intro caller hcaller
        rcases List.mem_append.mp hcaller with hold | hnew
        · exact h.meets caller hold
        · rw [List.mem_singleton.mp hnew]
          exact acquire_meets hfits limit
      · unfold register
        rw [List.map_append]
        exact .ask
  | @release number user here =>
      refine ⟨⟨h.isList, h.fits, h.slots, ?_⟩, removed, ?_⟩
      · intro caller hcaller
        rcases List.mem_append.mp hcaller with hold | hnew
        · exact h.meets caller hold
        · rw [List.mem_singleton.mp hnew]
          exact release_meets venue user none
      · unfold register
        rw [List.map_append]
        exact .leave
  | @turn before after caller plan split turns =>
      refine ⟨⟨h.isList, h.fits, h.slots, ?_⟩, removed, ?_⟩
      · exact forall_mem_replace split h.meets ((h.meets _ (mem_of_split split)).turns turns)
      · have hsame : (Crowd.register venue { crowd with
            callers := before ++ { caller with plan := plan } :: after } removed) =
            crowd.register venue removed := by
          simp [register, split, held]
        rw [hsame]
        exact .rest
  | hears hears => exact ⟨hears.conducted h hmoderate, hears.moves h removed⟩
  | elsewhere keys list others =>
      refine ⟨⟨fun hmem => h.isList (others.mp hmem), h.fits, h.slots, h.meets⟩, removed, ?_⟩
      have hitems : keys.items venue.queueKey = crowd.keys.items venue.queueKey := by
        unfold Keyspace.items
        rw [list]
      unfold register
      rw [hitems]
      exact .rest

/-!
## Runs
-/

abbrev Goes (venue : Venue τ) : Register → Register → Prop :=
  Register.Goes venue.capacity venue.initial venue.Lossy

theorem Conducted.leads (h : Conducted venue crowd) (hmoderate : venue.Moderate)
    (hleads : Leads venue crowd crowd') (removed : Nat) :
    Conducted venue crowd' ∧
      ∃ removed', Goes venue (crowd.register venue removed) (crowd'.register venue removed') := by
  induction hleads with
  | refl => exact ⟨h, removed, .refl⟩
  | tail _ hstep ih =>
      rcases ih with ⟨hconducted, removed₁, hgoes⟩
      rcases hconducted.step hmoderate hstep removed₁ with ⟨hconducted', removed₂, hmoves⟩
      exact ⟨hconducted', removed₂, hgoes.tail hmoves⟩

namespace Opening

theorem conducted (h : Opening venue crowd) : Conducted venue crowd := by
  refine ⟨h.lists.isList, h.fits, ?_, ?_⟩
  · intro user huser ticket hticket
    rw [h.noSlots user huser] at hticket
    cases hticket
  · rw [h.noCallers]
    exact fun _ hcaller => nomatch hcaller

theorem register_eq (h : Opening venue crowd) :
    crowd.register venue 0 = ⟨venue.initial, 0, [], [], [], 0⟩ := by
  have hheld : crowd.held = 0 := by
    unfold held
    rw [List.length_eq_zero_iff, List.flatMap_eq_nil_iff]
    exact h.noSlots
  unfold register
  rw [h.lists.items, h.noEntries, h.noAdmissions, h.noCallers, hheld]
  rfl

theorem orderly (h : Opening venue crowd) :
    (crowd.register venue 0).Orderly venue.capacity venue.initial := by
  rw [h.register_eq]
  refine ⟨⟨List.nodup_nil, nofun, List.nodup_nil, nofun, nofun, nofun⟩, ?_, Nat.le_refl _,
    Nat.le_refl _, List.nodup_nil, nofun, nofun, ?_⟩
  · exact (List.append_nil _).symm
  · exact fun _ => ⟨List.prefix_rfl, fun h => absurd rfl h⟩

theorem complete (h : Opening venue crowd) : (crowd.register venue 0).Complete := by
  rw [h.register_eq]
  exact ⟨nofun, rfl, rfl⟩

end Opening

/-- Every crowd that comes of an opening is conducted and has an orderly register. -/
theorem Opening.leads (h : Opening venue crowd) (hmoderate : venue.Moderate)
    (hleads : Leads venue crowd crowd') :
    Conducted venue crowd' ∧ ∃ removed,
      (crowd'.register venue removed).Orderly venue.capacity venue.initial ∧
      (¬ venue.Lossy → (crowd'.register venue removed).Complete) := by
  rcases h.conducted.leads hmoderate hleads 0 with ⟨hconducted, removed, hgoes⟩
  exact ⟨hconducted, removed, hgoes.orderly h.orderly,
    fun hlossy => hgoes.complete hlossy h.complete⟩

end Crowd
end Turnstile
