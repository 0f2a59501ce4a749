import Turnstile.Proofs.Hall.Solvency
import Turnstile.Proofs.Redis.Agreement

/-!
# Semaphores with different keys

Instances of semaphores with different keys can share a server without taking notice of one
another.  Whatever happens to the instances of one key would happen to them in the same way if the
others did nothing: the same commands are sent and meet with the same fates, each of them is told
the same, and at the same time the same is kept under the key, with the same deadline.

Nothing is assumed of what happens otherwise.  Commands may fail with or without effect, uses may
be interrupted and run out of time, and the clock of the server may go on at any time.

## Main definitions

* `Day` - a hall and the time at its server.
* `Day.Happens` - what can happen in the course of a day.
* `Day.Beside` - what two days have in common as far as one key is concerned.

## Main statements

* `Day.Runs.apart_from_other_keys` - deleting what happens to the instances of other keys gives a
  run, in which the others are told the same and find the same under their key.
-/

namespace Turnstile

open Redis

variable {τ : Type} [Seconds τ]

/-- Semaphores with different keys have different queues, whatever characters the keys are made
of. -/
theorem Semaphore.key_eq_of_queueKey_eq {a b : Semaphore τ} (h : a.queueKey = b.queueKey) :
    a.key = b.key :=
  (String.append_right_inj _).mp ((String.append_left_inj _).mp h)

namespace Hall

variable {hall hall' lone : Hall τ} {number : Nat} {key : String} {regime : Regime τ}
  {r : (Premises τ).Request} {answer : (Premises τ).Answer r}

def serves (hall : Hall τ) (key : String) (number : Nat) : Bool :=
  (hall.users[number]?.map fun user => user.semaphore.key) == some key

theorem serves_of_outfits (h : hall'.users.map User.outfit = hall.users.map User.outfit) :
    hall'.serves key = hall.serves key := by
  have hkeys : ∀ users : List (User τ), ∀ number : Nat,
      (users[number]?.map fun user => user.semaphore.key) =
        (users.map User.outfit)[number]?.map fun outfit => outfit.2.key := by
    intro users number
    rw [List.getElem?_map, Option.map_map]
    rfl
  funext number
  unfold serves
  rw [hkeys, hkeys, h]

theorem serves_iff {semaphore : Semaphore τ} (h : hall.queueKey? number = some key) :
    hall.serves semaphore.key number = true ↔ key = semaphore.queueKey := by
  rcases Option.map_eq_some_iff.mp h with ⟨user, huser, rfl⟩
  unfold serves
  rw [huser, Option.map_some, beq_iff_eq, Option.some_inj]
  constructor
  · intro hkey
    unfold Semaphore.queueKey
    rw [hkey]
  · exact Semaphore.key_eq_of_queueKey_eq

theorem Conducted.ofQueue (h : hall.Conducted regime) {errand : Errand τ}
    (herrand : errand ∈ hall.errands) {client : Client} {command : Command}
    {told : Except (Failure τ) command.Reply}
    {plan : Plan (Premises τ) τ (Except (Failure τ) Unit)}
    (hasks : errand.plan.Asks (.inl (.call client command)) told plan) :
    ∃ key, hall.queueKey? errand.user = some key ∧ command.OfQueue key := by
  rcases h.meets errand herrand with ⟨key, hkey, hmeets⟩
  exact ⟨key, hkey, Credit.ofQueue_of_allows (hmeets.asks hasks).1⟩

/-!
## Requests other than commands
-/

theorem Answers.keys_eq (h : Answers regime hall number r answer [] hall') :
    hall'.keys = hall.keys := by
  cases h <;> rfl

theorem getElem?_replace {before after : List (User τ)} {user user' : User τ}
    (split : hall.users = before ++ user :: after) (place : before.length = number)
    (other : Nat) :
    (before ++ user' :: after)[other]? =
      if other = number then some user' else hall.users[other]? := by
  split
  · rename_i heq
    rw [heq, ← place]
    exact getElem?_here _ _ _
  · rename_i hne
    rw [split]
    exact getElem?_replaced fun heq => hne (heq.symm.trans place)

/-- An instance that is the same in another hall can be answered in the same way there, and it is
still the same afterwards. -/
theorem Answers.transfer (h : Answers regime hall number r answer [] hall')
    (hhere : lone.users[number]? = hall.users[number]?) :
    ∃ lone' : Hall τ, Answers regime lone number r answer [] lone' ∧ lone'.keys = lone.keys ∧
      ∀ other : Nat, lone.users[other]? = hall.users[other]? →
        lone'.users[other]? = hall'.users[other]? := by
  cases h with
  | dial endpoint client => exact ⟨lone, .dial endpoint client, rfl, fun _ h => h⟩
  | hangUp client => exact ⟨lone, .hangUp client, rfl, fun _ h => h⟩
  | estimate position capacity base allowed =>
      exact ⟨lone, .estimate position capacity base allowed, rfl, fun _ h => h⟩
  | sleep allowed => exact ⟨lone, .sleep allowed, rfl, fun _ h => h⟩
  | now allowed => exact ⟨lone, .now allowed, rfl, fun _ h => h⟩
  | record mode entry => exact ⟨lone, .record mode entry, rfl, fun _ h => h⟩
  | freshId id => exact ⟨lone, .freshId id, rfl, fun _ h => h⟩
  | hold ticket split place =>
      rw [getElem?_of_split split place] at hhere
      rcases Crowd.split_of_getElem? hhere with ⟨hsplit, hplace⟩
      refine ⟨_, .hold ticket hsplit hplace, rfl, fun other hother => ?_⟩
      dsimp only
      rw [getElem?_replace hsplit hplace, getElem?_replace split place, hother]
  | takeOldest split place oldest =>
      rw [getElem?_of_split split place] at hhere
      rcases Crowd.split_of_getElem? hhere with ⟨hsplit, hplace⟩
      refine ⟨_, .takeOldest hsplit hplace oldest, rfl, fun other hother => ?_⟩
      dsimp only
      rw [getElem?_replace hsplit hplace, getElem?_replace split place, hother]
  | noneHeld split place empty =>
      rw [getElem?_of_split split place] at hhere
      rcases Crowd.split_of_getElem? hhere with ⟨hsplit, hplace⟩
      exact ⟨lone, .noneHeld hsplit hplace empty, rfl, fun _ h => h⟩

end Hall

/-!
## Days
-/

/-- A hall and the time by the clock of its server. -/
structure Day (τ : Type) [Seconds τ] where
  clock : τ
  hall : Hall τ

/-- What happens in the course of a day: the clock goes on, or something happens to a use of the
instance that is told by its number. -/
inductive Happening (τ : Type) [Seconds τ] where
  | passes (time : τ)
  | calls (number : Nat) (use : Use τ)
  | turns (number : Nat)
  | sends (number : Nat) (command : Command) (fate : Fate τ)
      (told : Except (Failure τ) command.Reply)
  | hears (number : Nat) (r : (Premises τ).Request) (answer : (Premises τ).Answer r)

def Happening.concerns (concern : Nat → Bool) : Happening τ → Bool
  | passes _ => true
  | calls number _ | turns number | sends number .. | hears number .. => concern number

namespace Day

def visible (day : Day τ) : Keyspace τ :=
  day.hall.keys.purge day.clock

/-- What can happen in the course of a day.  The clock never goes back. -/
inductive Happens (day : Day τ) : Happening τ → Day τ → Prop where
  | passes {time : τ} (onward : ∀ deadline : τ, deadline ≤ day.clock → deadline ≤ time) :
      Happens day (.passes time) { day with clock := time }
  | calls {number : Nat} {user : User τ} (use : Use τ)
      (here : day.hall.users[number]? = some user) :
      Happens day (.calls number use) { day with hall := day.hall.called number user use }
  | turns {before after : List (Errand τ)} {errand : Errand τ}
      {plan : Plan (Premises τ) τ (Except (Failure τ) Unit)}
      (split : day.hall.errands = before ++ errand :: after)
      (turns : Plan.Turns True errand.plan plan) :
      Happens day (.turns errand.user)
        { day with
          hall := { day.hall with errands := before ++ { errand with plan := plan } :: after } }
  /-- No command fails in the way in which a request for a slot is refused. -/
  | sends {before after : List (Errand τ)} {errand : Errand τ} {client : Client}
      {command : Command} {told : Except (Failure τ) command.Reply}
      {plan : Plan (Premises τ) τ (Except (Failure τ) Unit)} (fate : Fate τ)
      (noRefusal : ∀ e, fate.failure? = some e → Blocking.isRefusal e = false)
      (split : day.hall.errands = before ++ errand :: after)
      (asks : errand.plan.Asks (.inl (.call client command)) told plan)
      (heard : told = fate.reply day.clock day.visible command) :
      Happens day (.sends errand.user command fate told)
        { day with
          hall :=
            { day.hall with
              keys := fate.keep day.clock day.visible command
              errands := before ++ errand.resume (.inl (.call client command)) told
                [⟨command, fate.took, told⟩] plan :: after } }
  /-- With any other request no command is sent. -/
  | hears {before after : List (Errand τ)} {errand : Errand τ} {r : (Premises τ).Request}
      {answer : (Premises τ).Answer r} {plan : Plan (Premises τ) τ (Except (Failure τ) Unit)}
      {hall' : Hall τ} (split : day.hall.errands = before ++ errand :: after)
      (asks : errand.plan.Asks r answer plan)
      (answers : Hall.Answers .lawless day.hall errand.user r answer [] hall') :
      Happens day (.hears errand.user r answer)
        { day with
          hall := { hall' with errands := before ++ errand.resume r answer [] plan :: after } }

inductive Runs : Day τ → List (Happening τ) → Day τ → Prop where
  | nil {day : Day τ} : Runs day [] day
  | cons {day day' day'' : Day τ} {happening : Happening τ} {rest : List (Happening τ)}
      (first : Happens day happening day') (others : Runs day' rest day'') :
      Runs day (happening :: rest) day''

variable {day day' lone : Day τ} {happening : Happening τ} {semaphore : Semaphore τ}
  {concern : Nat → Bool}

/-- A day is the day of a hall in which anything may go wrong. -/
theorem Happens.leads (h : Happens day happening day') :
    Hall.Leads .lawless day.hall day'.hall := by
  cases h with
  | passes onward => exact .refl
  | calls use here => exact .single (.call use here)
  | turns split turns => exact .single (.turn split turns)
  | @sends before after errand client command told plan fate noRefusal split asks heard =>
      subst heard
      have hpurged : Hall.Step .lawless day.hall { day.hall with keys := day.visible } :=
        .elsewhere day.visible trivial
      have hexecuted := fate.executed day.clock day.visible command noRefusal
      have hsplit : ({ day.hall with keys := day.visible } : Hall τ).errands =
          before ++ errand :: after := split
      exact .tail (.single hpurged) (.hears hsplit asks (.call client hexecuted))
  | hears split asks answers => exact .single (.hears split asks answers)

theorem Happens.serves_eq (h : Happens day happening day') (key : String) :
    day'.hall.serves key = day.hall.serves key := by
  apply Hall.serves_of_outfits
  cases h with
  | hears split asks answers => exact answers.outfits
  | _ => rfl

theorem visible_later {time : τ} (key : String)
    (honward : ∀ deadline : τ, deadline ≤ day.clock → deadline ≤ time) :
    (day.visible.purge time).SameAt key { day with clock := time }.visible :=
  Keyspace.sameAt_purge_purge day.hall.keys key honward

/-!
## Two days
-/

def usesOf (concern : Nat → Bool) (errands : List (Errand τ)) : List (Errand τ) :=
  errands.filter fun errand => concern errand.user

/-- As far as a key and the instances of concern go, a day is like another one on which nothing but
uses of these instances were made. -/
structure Beside (key : String) (concern : Nat → Bool) (day lone : Day τ) : Prop where
  clock : lone.clock = day.clock
  keys : lone.visible.SameAt key day.visible
  users : ∀ number, concern number = true → lone.hall.users[number]? = day.hall.users[number]?
  errands : lone.hall.errands = usesOf concern day.hall.errands

section Uses

variable {errands before after : List (Errand τ)} {errand errand' : Errand τ}

theorem usesOf_split (h : concern errand.user = true) :
    usesOf concern before ++ errand :: usesOf concern after =
      usesOf concern (before ++ errand :: after) := by
  simp [usesOf, h]

theorem usesOf_replaced (split : errands = before ++ errand :: after)
    (h : concern errand.user = false) (huser : errand'.user = errand.user) :
    usesOf concern errands = usesOf concern (before ++ errand' :: after) := by
  simp [usesOf, split, huser, h]

theorem Beside.split {key : String} (hbeside : Beside key concern day lone)
    (split : day.hall.errands = before ++ errand :: after) (h : concern errand.user = true) :
    lone.hall.errands = usesOf concern before ++ errand :: usesOf concern after := by
  rw [hbeside.errands, split]
  exact (usesOf_split h).symm

end Uses

theorem Beside.opening (hopening : day.hall.Opening) (key : String) (concern : Nat → Bool) :
    Beside key concern day day := by
  constructor
  · rfl
  · rfl
  · intro number _
    rfl
  · rw [hopening.noErrands]
    rfl

/-- What happens to an instance of no concern leaves everything of concern as it is. -/
theorem Happens.hidden (h : Happens day happening day') (hconducted : day.hall.Conducted .lawless)
    (hconcern : concern = day.hall.serves semaphore.key)
    (hbeside : Beside semaphore.queueKey concern day lone)
    (hother : happening.concerns concern = false) :
    Beside semaphore.queueKey concern day' lone := by
  cases h with
  | passes onward => cases hother
  | calls use here =>
      constructor
      · exact hbeside.clock
      · exact hbeside.keys
      · exact hbeside.users
      · change concern _ = false at hother
        rw [hbeside.errands]
        simp [usesOf, Hall.called, hother]
  | @turns before after errand plan split turns =>
      constructor
      · exact hbeside.clock
      · exact hbeside.keys
      · exact hbeside.users
      · exact hbeside.errands.trans (usesOf_replaced split hother rfl)
  | @sends before after errand client command told plan fate noRefusal split asks heard =>
      rcases hconducted.ofQueue (mem_of_split split) asks with ⟨key, hkey, hqueue⟩
      have hne : command.key? ≠ some semaphore.queueKey := by
        intro heq
        rcases hqueue.key? with hnone | hsome
        · cases hnone.symm.trans heq
        · have hserves := (Hall.serves_iff hkey).mpr (Option.some_inj.mp (hsome.symm.trans heq))
          rw [hconcern] at hother
          cases hserves.symm.trans hother
      have hkept := (fate.sameAt_keep_of_ne day.clock day.visible hne).purge day.clock
      have hvisible := Keyspace.sameAt_purge_purge day.hall.keys semaphore.queueKey
        fun (deadline : τ) (h : deadline ≤ day.clock) => h
      constructor
      · exact hbeside.clock
      · exact hbeside.keys.trans (hkept.trans hvisible).symm
      · exact hbeside.users
      · exact hbeside.errands.trans (usesOf_replaced split hother rfl)
  | @hears before after errand r answer plan hall' split asks answers =>
      constructor
      · exact hbeside.clock
      · show lone.visible.SameAt _ (hall'.keys.purge day.clock)
        rw [answers.keys_eq]
        exact hbeside.keys
      · intro number hnumber
        have hne : number ≠ errand.user := by
          intro heq
          rw [heq] at hnumber
          cases hnumber.symm.trans hother
        exact (hbeside.users number hnumber).trans (answers.users_of_ne hne).symm
      · exact hbeside.errands.trans (usesOf_replaced split hother rfl)

/-- What happens to an instance of concern happens in the same way if the others do nothing. -/
theorem Happens.mirrored (h : Happens day happening day')
    (hconducted : day.hall.Conducted .lawless)
    (hconcern : concern = day.hall.serves semaphore.key)
    (hbeside : Beside semaphore.queueKey concern day lone)
    (hown : happening.concerns concern = true) :
    ∃ lone', Happens lone happening lone' ∧ Beside semaphore.queueKey concern day' lone' := by
  have hclock := hbeside.clock
  cases h with
  | @passes time onward =>
      have honward : ∀ deadline : τ, deadline ≤ lone.clock → deadline ≤ time := by
        rw [hclock]
        exact onward
      refine ⟨_, .passes honward, ?_⟩
      constructor
      · rfl
      · have hlone := visible_later semaphore.queueKey honward
        have hday := visible_later semaphore.queueKey onward
        exact (hlone.symm.trans (hbeside.keys.purge time)).trans hday
      · exact hbeside.users
      · exact hbeside.errands
  | @calls number user use here =>
      change concern number = true at hown
      refine ⟨_, .calls use ((hbeside.users number hown).trans here), ?_⟩
      constructor
      · exact hclock
      · exact hbeside.keys
      · exact hbeside.users
      · simp [usesOf, Hall.called, hbeside.errands, hown]
  | @turns before after errand plan split turns =>
      have hsplit := hbeside.split split hown
      refine ⟨_, .turns hsplit turns, ?_⟩
      constructor
      · exact hclock
      · exact hbeside.keys
      · exact hbeside.users
      · exact usesOf_split hown
  | @sends before after errand client command told plan fate noRefusal split asks heard =>
      have hsplit := hbeside.split split hown
      rcases hconducted.ofQueue (mem_of_split split) asks with ⟨key, hkey, hqueue⟩
      rw [hconcern] at hown
      rw [(Hall.serves_iff hkey).mp hown] at hqueue
      have htold : told = fate.reply lone.clock lone.visible command := by
        rw [heard, hclock]
        exact (fate.reply_eq day.clock hbeside.keys hqueue).symm
      refine ⟨_, .sends fate noRefusal hsplit asks htold, ?_⟩
      constructor
      · exact hclock
      · show ((fate.keep lone.clock lone.visible command).purge lone.clock).SameAt _
          ((fate.keep day.clock day.visible command).purge day.clock)
        rw [hclock]
        exact (fate.sameAt_keep day.clock hbeside.keys command).purge day.clock
      · exact hbeside.users
      · rw [← hconcern] at hown
        exact usesOf_split hown
  | @hears before after errand r answer plan hall' split asks answers =>
      have hsplit := hbeside.split split hown
      rcases answers.transfer (hbeside.users errand.user hown) with
        ⟨hall'', hanswers, hkeys, husers⟩
      refine ⟨_, .hears hsplit asks hanswers, ?_⟩
      constructor
      · exact hclock
      · show (hall''.keys.purge lone.clock).SameAt _ (hall'.keys.purge day.clock)
        rw [hkeys, answers.keys_eq]
        exact hbeside.keys
      · intro number hnumber
        exact husers number (hbeside.users number hnumber)
      · exact usesOf_split hown

/-!
## Runs
-/

theorem Runs.beside {happenings : List (Happening τ)} (h : Runs day happenings day')
    (hconducted : day.hall.Conducted .lawless)
    (hconcern : concern = day.hall.serves semaphore.key)
    (hbeside : Beside semaphore.queueKey concern day lone) :
    ∃ lone', Runs lone (happenings.filter (Happening.concerns concern)) lone' ∧
      Beside semaphore.queueKey concern day' lone' := by
  induction h generalizing lone with
  | nil => exact ⟨lone, .nil, hbeside⟩
  | @cons day day₁ day' happening rest first others ih =>
      have hconducted' := hconducted.leads Regime.not_fair_lawless first.leads
      have hconcern' := hconcern.trans (first.serves_eq semaphore.key).symm
      cases hown : happening.concerns concern with
      | false =>
          rw [List.filter_cons_of_neg (by simp [hown])]
          exact ih hconducted' hconcern' (first.hidden hconducted hconcern hbeside hown)
      | true =>
          rcases first.mirrored hconducted hconcern hbeside hown with ⟨lone₁, hfirst, hbeside₁⟩
          rcases ih hconducted' hconcern' hbeside₁ with ⟨lone', hothers, hbeside'⟩
          rw [List.filter_cons_of_pos hown]
          exact ⟨lone', .cons hfirst hothers, hbeside'⟩

/-!
## Servers
-/

def server (day : Day τ) : τ × Keyspace τ :=
  (day.clock, day.hall.keys)

def advance (server : τ × Keyspace τ) : Happening τ → τ × Keyspace τ
  | .passes time => (time, server.2)
  | .sends _ command fate _ =>
      (server.1, fate.keep server.1 (server.2.purge server.1) command)
  | _ => server

theorem Happens.server_eq (h : Happens day happening day') :
    day'.server = advance day.server happening := by
  cases h with
  | hears split asks answers =>
      unfold server
      rw [answers.keys_eq]
      rfl
  | _ => rfl

/-- What is kept at a server is decided by what happens. -/
theorem Runs.server_eq {happenings : List (Happening τ)} (h : Runs day happenings day') :
    day'.server = happenings.foldl advance day.server := by
  induction h with
  | nil => rfl
  | cons first others ih =>
      rw [List.foldl_cons, ← first.server_eq]
      exact ih

/-- What happens to the instances of a key if the others do nothing. -/
def only (day : Day τ) (key : String) (happenings : List (Happening τ)) : List (Happening τ) :=
  happenings.filter (Happening.concerns (day.hall.serves key))

/-- Deleting what happens to the instances of all other keys gives a run again, in which the
instances of the key and their uses are the same, with everything that they were told.  Every such
run ends at the same time and with the same under the key.  Different keys have different queues. -/
theorem Runs.apart_from_other_keys {happenings : List (Happening τ)} (semaphore : Semaphore τ)
    (hopening : day.hall.Opening) (hruns : Runs day happenings day') :
    (∀ other : Semaphore τ, other.key ≠ semaphore.key → other.queueKey ≠ semaphore.queueKey) ∧
      (∃ lone, Runs day (day.only semaphore.key happenings) lone ∧
        Beside semaphore.queueKey (day.hall.serves semaphore.key) day' lone) ∧
      ∀ lone, Runs day (day.only semaphore.key happenings) lone →
        lone.clock = day'.clock ∧ lone.visible.SameAt semaphore.queueKey day'.visible := by
  have hconducted : day.hall.Conducted .lawless :=
    hopening.conducted fun hfair => absurd hfair Regime.not_fair_lawless
  rcases hruns.beside hconducted rfl (.opening hopening _ _) with ⟨lone, hlone, hbeside⟩
  refine ⟨?_, ⟨lone, hlone, hbeside⟩, ?_⟩
  · intro other hne heq
    exact hne (Semaphore.key_eq_of_queueKey_eq heq)
  · intro lone' hlone'
    have hserver : lone'.server = lone.server := hlone'.server_eq.trans hlone.server_eq.symm
    rcases Prod.mk.inj hserver with ⟨hclock, hkeys⟩
    have hvisible : lone'.visible = lone.visible := by
      unfold visible
      rw [hclock, hkeys]
    rw [hclock, hvisible]
    exact ⟨hbeside.clock, hbeside.keys⟩

/-!
## Two desks
-/

def go? (day : Day τ) (place : Nat) : Option (Happening τ × Day τ) :=
  match day.hall.errands[place]? with
  | none => none
  | some errand =>
      let goesOn (hall : Hall τ) (errand : Errand τ) : Day τ :=
        { day with
          hall :=
            { hall with
              errands := day.hall.errands.take place ++
                errand :: day.hall.errands.drop (place + 1) } }
      match errand.plan.front? with
      | none =>
          match errand.plan.stir? .inTime with
          | none => none
          | some plan => some (.turns errand.user, goesOn day.hall { errand with plan := plan })
      | some ⟨.inl (.call client command), next⟩ =>
          let fate := Fate.answered false
          let told := fate.reply day.clock day.visible command
          some (.sends errand.user command fate told,
            goesOn { day.hall with keys := fate.keep day.clock day.visible command }
              (errand.resume (.inl (.call client command)) told [⟨command, fate.took, told⟩]
                (next told)))
      | some ⟨r, next⟩ =>
          match day.hall.answer? place errand.user r with
          | some (answer, [], hall') =>
              some (.hears errand.user r answer,
                goesOn hall' (errand.resume r answer [] (next answer)))
          | _ => none

def drive (day : Day τ) : List Nat → Option (List (Happening τ) × Day τ)
  | [] => some ([], day)
  | place :: rest =>
      match day.go? place with
      | none => none
      | some (happening, day') =>
          (day'.drive rest).map fun driven => (happening :: driven.1, driven.2)

theorem happens_of_go? {place : Nat} (h : day.go? place = some (happening, day')) :
    Happens day happening day' := by
  have hadmits : (Regime.lawless : Regime τ).Admits fun _ _ => false := by
    constructor
    · intro base _
      trivial
    · intro duration
      trivial
    · trivial
    · intro command e he
      cases he
  unfold go? at h
  split at h
  · cases h
  · rename_i errand herrand
    rcases Crowd.split_of_getElem? herrand with ⟨hsplit, _⟩
    dsimp only at h
    split at h
    · split at h
      · cases h
      · rename_i plan hstir
        cases h
        exact .turns hsplit (Plan.turns_of_stir? (Or.inr trivial) hstir)
    · rename_i client command next hfront
      cases h
      exact .sends (.answered false) (fun e he => nomatch he) hsplit
        (Plan.asks_of_front? hfront _) rfl
    · rename_i r next _ hfront
      split at h
      · rename_i answer hall' hanswer
        cases h
        exact .hears hsplit (Plan.asks_of_front? hfront answer)
          (Hall.answers_of_answer? hadmits hanswer)
      · cases h

theorem runs_of_drive {places : List Nat} {happenings : List (Happening τ)}
    (h : day.drive places = some (happenings, day')) : Runs day happenings day' := by
  induction places generalizing day happenings with
  | nil =>
      cases h
      exact .nil
  | cons place rest ih =>
      unfold drive at h
      split at h
      · cases h
      · rename_i happening day₁ hgo
        rcases Option.map_eq_some_iff.mp h with ⟨⟨others, day₂⟩, hdrive, heq⟩
        cases heq
        exact .cons (happens_of_go? hgo) (ih hdrive)

/-- A semaphore whose key ends like the key of a queue. -/
def annex : Semaphore Float where
  key := "desk:queue"
  capacity := 1
  maxPosition := 2
  sleepDuration := 0.1
  sound := by decide +kernel

def twoDesks : Day Float where
  clock := 0
  hall :=
    { keys := {}
      users := [⟨.blocking, Hall.desk, []⟩, ⟨.cooperative, annex, []⟩]
      errands := [] }

def bothCalled : Day Float :=
  { twoDesks with
    hall :=
      (twoDesks.hall.called 0 ⟨.blocking, Hall.desk, []⟩ (.acquire none)).called 1
        ⟨.cooperative, annex, []⟩ (.acquire none) }

def bothCalls : List (Happening Float) :=
  [.calls 0 (.acquire none), .calls 1 (.acquire none)]

/-- What is shown of a run: the slots that are held, the happenings of concern to the desk, all of
them, and the queue of the desk. -/
def shown (driven : List (Happening Float) × Day Float) : Nat × Nat × Nat × List ByteArray :=
  (driven.2.hall.held, (twoDesks.only Hall.desk.key (bothCalls ++ driven.1)).length,
    (bothCalls ++ driven.1).length, driven.2.visible.items Hall.desk.queueKey)

/-- Two instances enter their queues at the same time and are let in, and without the second one
the first one would be let in all the same. -/
theorem Runs.apart_from_other_keys_at_twoDesks : ∃ happenings day lone,
    Runs twoDesks happenings day ∧ day.hall.held = 2 ∧
      (twoDesks.only Hall.desk.key happenings).length < happenings.length ∧
      Runs twoDesks (twoDesks.only Hall.desk.key happenings) lone ∧
      lone.visible.items Hall.desk.queueKey = ["0".toUTF8] := by
  have hopening : twoDesks.hall.Opening := by
    constructor
    · decide +kernel
    · rfl
  have hdrive : (bothCalled.drive ((List.replicate 11 [0, 1]).flatten ++ [1])).map shown =
      some (2, 12, 25, ["0".toUTF8]) := by
    decide +kernel
  rcases Option.map_eq_some_iff.mp hdrive with ⟨⟨happenings, day⟩, hdriven, hshown⟩
  have hruns : Runs twoDesks (bothCalls ++ happenings) day :=
    .cons (.calls (.acquire none) rfl) (.cons (.calls (.acquire none) rfl) (runs_of_drive hdriven))
  rcases Runs.apart_from_other_keys Hall.desk hopening hruns with ⟨_, ⟨lone, hlone, hbeside⟩, _⟩
  simp only [shown, Prod.mk.injEq] at hshown
  rcases hshown with ⟨hheld, hown, hall, hitems⟩
  refine ⟨_, day, lone, hruns, hheld, ?_, hlone, ?_⟩
  · rw [hown, hall]
    decide
  · rw [hbeside.keys.items_eq]
    exact hitems

end Day
end Turnstile
