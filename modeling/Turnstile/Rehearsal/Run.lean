import Turnstile.Rehearsal.Thread

/-!
# Rehearsals

A rehearsal follows a script from beginning to end and reports, for each step, how it ended, what
happened meanwhile, and what the world looks like afterwards.

In a blocking rehearsal the steps follow one another, and whenever time passes the world makes the
steps that are due on its own agenda.  In a cooperative rehearsal each step that can wait becomes
a task, and the tasks take turns.

## Main definitions

* `rehearseBlocking` - follows a script step by step.
* `rehearseTasks` - follows a script as tasks.
-/

namespace Turnstile
namespace Rehearsal

structure Setting (τ : Type) where
  servers : Table (Server τ)
  /-- The identities to hand out before numbered ones. -/
  ids : List String := []
  /-- How many sleeps are allowed. -/
  limit : Nat := 60

variable {τ : Type} [Seconds τ]

/-- The world at the start, at one second on its clock. -/
def Setting.world (setting : Setting τ) (mode : Mode) : World τ where
  mode := mode
  clock := 1
  shown := 1
  servers := setting.servers
  ids := setting.ids
  limit := setting.limit
  shared := .fresh [0]

/-- Fuel for one step of a script with `size` steps.  A loop goes round only as often as it may
sleep, and one round takes less than a thousand forms of plan. -/
def Setting.fuel (setting : Setting τ) (size : Nat) : Nat :=
  1000 * (setting.limit + size + 10)

def World.takeEvents (world : World τ) : List (Occurrence τ) × World τ :=
  (world.events.reverse, { world with events := [] })

structure Report (τ : Type) where
  outcome : Outcome τ
  events : List (Occurrence τ)
  after : Snapshot τ

section Blocking

variable [Rooted τ]

/-- The outcome of a scene.  One that was left before its end counts as interrupted. -/
def outcomeOf (result? : Option (Outcome τ)) : Outcome τ :=
  result?.getD (.error .interrupted)

/-- Lets time pass up to a target.  Steps of the world that are due by then are made on the way,
and they may let time pass themselves.  As many steps are made at most as there are on the
agenda.  A target that lies in the past leaves the clock where it is. -/
def passUntil (fuel : Nat) : (steps : Nat) → (target : τ) → World τ → World τ
  | 0, target, world => world.passTo target
  | steps + 1, target, world =>
      match world.agenda with
      | [] => world.passTo target
      | scheduled :: rest =>
          if scheduled.time ≤ target then
            let world := { world with agenda := rest }
            let world := (world.passTo scheduled.time).emit (.begun scheduled.index)
            let pass := fun duration (world : World τ) =>
              passUntil fuel steps (world.clock + duration) world
            let (result?, world) := play pass fuel scheduled.step.scene world
            let world := world.emit (.settled scheduled.index (outcomeOf result?))
            passUntil fuel steps target world
          else world.passTo target

def runSteps (fuel : Nat) : List (Step τ) → World τ → List (Report τ)
  | [], _ => []
  | step :: rest, world =>
      let pass := fun duration (world : World τ) =>
        passUntil fuel world.agenda.length (world.clock + duration) world
      let (result?, world) := play pass fuel step.scene world
      let (events, world) := world.takeEvents
      ⟨outcomeOf result?, events, world.snapshot⟩ :: runSteps fuel rest world

def rehearseBlocking (setting : Setting τ) (agenda : List (Scheduled τ)) (script : List (Step τ)) :
    List (Report τ) :=
  let fuel := setting.fuel (Step.sizes script + Step.sizes (agenda.map (·.step)))
  runSteps fuel script { setting.world .blocking with agenda := agenda }

end Blocking

section Tasks

/-- A task: a step of the script that was started, with its number as a player. -/
structure Task (τ : Type) [Seconds τ] where
  number : Nat
  name : String
  thread : Thread τ (Outcome τ)

structure Company (τ : Type) [Seconds τ] where
  world : World τ
  tasks : List (Task τ) := []

/-- Lets a player go on in its turn if it belongs to a task, and reports the end of the task if it
comes to it. -/
def Task.goOn (fuel turn : Nat) (wake : Wake) (task : Task τ) (world : World τ) :
    Task τ × World τ :=
  if task.thread.hasEnded then (task, world)
  else
    let (thread, world) :=
      task.thread.goOn fuel turn wake task.number { world with task := some task.name }
    let world := if thread.hasEnded then world.emit (.done (outcomeOf thread.result?)) else world
    ({ task with thread := thread }, { world with task := none })

def Task.goOnAll (fuel turn : Nat) (wake : Wake) :
    List (Task τ) → World τ → List (Task τ) × World τ
  | [], world => ([], world)
  | task :: rest, world =>
      let (task, world) := task.goOn fuel turn wake world
      let (rest, world) := goOnAll fuel turn wake rest world
      (task :: rest, world)

namespace Company

def take (fuel : Nat) (company : Company τ) : Turn → Company τ
  | .give signal => { company with world := company.world.arrange (·.give signal) }
  | .play number =>
      let (wake, roster) := company.world.roster.goOn number
      let (tasks, world) := Task.goOnAll fuel number wake company.tasks
        { company.world with roster := roster }
      ⟨world, tasks⟩

/-- Takes all turns that are on the roster.  Turns that come up meanwhile are left for later, and
so are alarms that come to be due. -/
def round (fuel : Nat) (company : Company τ) : Company τ :=
  let (turns, roster) := company.world.roster.takeTurns company.world.clock
  turns.foldl (take fuel) { company with world := { company.world with roster := roster } }

/-- Takes turns until every player waits for an alarm that goes off after a target.  The clock goes
forward only when it is nobody's turn. -/
def settleUntil (fuel : Nat) : (rounds : Nat) → (target : τ) → Company τ → Company τ
  | 0, _, company => company
  | rounds + 1, target, company =>
      match company.world.roster.nextTime? with
      | some time =>
          if target < time then company
          else
            settleUntil fuel rounds target
              ({ company with world := company.world.passTo time }.round fuel)
      | none =>
          if company.world.roster.turns.isEmpty then company
          else settleUntil fuel rounds target (company.round fuel)

def waitUntil (fuel : Nat) (target : τ) (company : Company τ) : Company τ :=
  let company := company.settleUntil fuel fuel target
  { company with world := company.world.passTo target }

def takeEvents (company : Company τ) : List (Occurrence τ) × Company τ :=
  let (events, world) := company.world.takeEvents
  (events, { company with world := world })

def start [Rooted τ] (name : String) (step : Step τ) (company : Company τ) : Company τ :=
  let (number, roster) := company.world.roster.enter none
  ⟨{ company.world with roster := roster, tasks := company.world.tasks.put name number },
    company.tasks ++ [⟨number, name, .ready step.scene⟩]⟩

def act (change : World τ → Outcome τ × World τ) (company : Company τ) :
    Outcome τ × Company τ :=
  let (outcome, world) := change company.world
  (outcome, { company with world := world })

/-- Makes a step: some steps happen at once, all others become tasks. -/
def make [Rooted τ] (name : String) (step : Step τ) (company : Company τ) :
    Outcome τ × Company τ :=
  match step with
  | .create semaphore form choices => company.act (World.create semaphore form choices)
  | .change edit => company.act (World.change edit)
  | .cancel task => company.act (World.cancel task)
  | .fail failure true => (.error failure, company)
  | step => (.ok (.started name), company.start name step)

end Company

/-- A step of a script for tasks: when it is made, and the name of its task. -/
structure Cue (τ : Type) where
  time : τ
  task : String
  step : Step τ

/-- What a step of a script for tasks showed.  `before` is what happened until it was made. -/
structure CueReport (τ : Type) extends Report τ where
  before : List (Occurrence τ)

structure Ending (τ : Type) where
  events : List (Occurrence τ)
  after : Snapshot τ
  pending : List String

def runCues [Rooted τ] (fuel : Nat) :
    List (Cue τ) → Company τ → List (CueReport τ) × Company τ
  | [], company => ([], company)
  | cue :: rest, company =>
      let company := company.waitUntil fuel (Seconds.later company.world.clock cue.time)
      let (before, company) := company.takeEvents
      let (outcome, company) := company.make cue.task cue.step
      let company := company.settleUntil fuel fuel company.world.clock
      let (events, company) := company.takeEvents
      let report : CueReport τ := ⟨⟨outcome, events, company.world.snapshot⟩, before⟩
      let (reports, company) := runCues fuel rest company
      (report :: reports, company)

def rehearseTasks [Rooted τ] (setting : Setting τ) (script : List (Cue τ)) (ending : τ) :
    List (CueReport τ) × Ending τ :=
  let fuel := setting.fuel (Step.sizes (script.map (·.step)))
  let (reports, company) := runCues fuel script ⟨setting.world .cooperative, []⟩
  let company := company.waitUntil fuel (Seconds.later company.world.clock ending)
  let (events, company) := company.takeEvents
  (reports, ⟨events, company.world.snapshot, company.world.pending⟩)

end Tasks

end Rehearsal
end Turnstile
