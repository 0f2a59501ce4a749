import Turnstile.Rehearsal.Stage

/-!
# Following a scene

A scene can be followed in two ways.  Where nobody else is on the stage it is followed to its end,
and time passes in its pauses.  Where several players take turns it is followed until it has to
wait; what is left of it is a thread, and the roster says when the thread goes on.

The two legs of a scene, and a body under a limit, are players of their own.

Following a scene takes fuel, one unit for each form of plan that is entered.  A scene that runs
out of fuel is left where it is.

## Main definitions

* `play` - follows a scene to its end.
* `follow` - follows a scene until it has to wait.
* `Thread.goOn` - lets a player go on in its turn.
-/

namespace Turnstile
namespace Rehearsal

variable {τ : Type} [Seconds τ]

/-- Follows a scene to its end, given how time passes.  Legs follow one after the other, and a body
is begun unless its limit has passed already. -/
def play (pass : τ → World τ → World τ) :
    (fuel : Nat) → {α : Type} → Scene τ α → World τ → Option α × World τ
  | 0, _, _, world => (none, world)
  | _ + 1, _, .pure a, world => (some a, world)
  | fuel + 1, _, .ask (.act change) next, world =>
      let (answer, world) := change world
      play pass fuel (next answer) world
  | fuel + 1, _, .ask (.pause duration) next, world =>
      play pass fuel (next Wake.due) (pass duration world)
  | fuel + 1, _, .iterate step start next, world =>
      play pass fuel
        ((step start).bind fun
          | .inl start => .iterate step start next
          | .inr result => next result) world
  | fuel + 1, _, .both left right next, world =>
      let (b?, world) := play pass fuel left world
      let (c?, world) := play pass fuel right world
      play pass fuel (next (b?.bind fun b => c?.map fun c => (b, c))) world
  | fuel + 1, _, .within limit body next, world =>
      if limit ≤ 0 then play pass fuel (next .expired none) world
      else
        let (b?, world) := play pass fuel body world
        play pass fuel (next .inTime b?) world

/-- What is left of a scene that has been followed up to some point. -/
inductive Thread (τ : Type) [Seconds τ] : Type → Type 1 where
  /-- It has ended.  There is no result if it was interrupted before it could begin. -/
  | ended {α : Type} (result? : Option α) : Thread τ α
  | ready {α : Type} (scene : Scene τ α) : Thread τ α
  /-- It pauses until a signal, or only lets others take their turns. -/
  | paused {α : Type} (signal? : Option Nat) (next : Wake → Scene τ α) : Thread τ α
  /-- It waits for two legs, each with its number as a player. -/
  | both {β γ α : Type} (left : Nat) (ofLeft : Thread τ β) (right : Nat) (ofRight : Thread τ γ)
      (next : Option (β × γ) → Scene τ α) : Thread τ α
  /-- It waits for a body with its number as a player.  There is the signal of the limit unless the
  limit had passed, and the lapse once the body was interrupted. -/
  | within {β α : Type} (signal? : Option Nat) (number : Nat) (body : Thread τ β)
      (lapse? : Option Lapse) (next : Lapse → Option β → Scene τ α) : Thread τ α

def Thread.result? {α : Type} : Thread τ α → Option α
  | .ended result? => result?
  | _ => none

def Thread.hasEnded {α : Type} : Thread τ α → Bool
  | .ended _ => true
  | _ => false

namespace World

def arrange (change : Roster τ → Roster τ) (world : World τ) : World τ :=
  { world with roster := change world.roster }

/-- Lets a player pause.  There is no signal to wait for if the pause takes no time: then the
player goes on when it is its turn again. -/
def beginPause (number : Nat) (duration : τ) (world : World τ) : Option Nat × World τ :=
  if duration ≤ 0 then (none, world.arrange (·.addTurn (.play number)))
  else
    let (signal, roster) := world.roster.newSignal
    let roster := roster.setAlarm (world.clock + duration) signal
    (some signal, { world with roster := roster.await number { number := signal } })

def beginBoth (number : Nat) (world : World τ) : Nat × Nat × World τ :=
  let (signal, roster) := world.roster.newSignal
  let (left, roster) := roster.enter (some signal)
  let (right, roster) := roster.enter (some signal)
  let awaited : Signal := { number := signal, missing := 2, legs := [left, right] }
  (left, right, { world with roster := roster.await number awaited })

/-- Interrupts a body, and lets the player that waits for it wait until it has ended. -/
def cutShort (number body : Nat) (world : World τ) : World τ :=
  let (signal, roster) := world.roster.newSignal
  let (_, roster) := (roster.redirect body signal).interrupt body
  { world with roster := roster.await number { number := signal } }

/-- Lets a player wait for a body under a limit, which is a player of its own.  A limit that has
passed already interrupts the body before it can begin.  Else the signal of the limit is given,
which is the signal of the body's end too. -/
def beginWithin (number : Nat) (limit : τ) (world : World τ) : Option Nat × Nat × World τ :=
  if limit ≤ 0 then
    let (body, roster) := world.roster.enter none
    (none, body, { world with roster := roster }.cutShort number body)
  else
    let (signal, roster) := world.roster.newSignal
    let roster := roster.setAlarm (world.clock + limit) signal
    let (body, roster) := roster.enter (some signal)
    (some signal, body, { world with roster := roster.await number { number := signal } })

def silence (signal? : Option Nat) (world : World τ) : World τ :=
  match signal? with
  | none => world
  | some signal => world.arrange (·.silence signal)

end World

/-- Follows the scene of a player until it has to wait, or ends. -/
def follow :
    (fuel number : Nat) → {α : Type} → Scene τ α → World τ → Thread τ α × World τ
  | 0, _, _, scene, world => (.ready scene, world)
  | _ + 1, number, _, .pure a, world => (.ended (some a), world.arrange (·.finish number))
  | fuel + 1, number, _, .ask (.act change) next, world =>
      let (answer, world) := change world
      follow fuel number (next answer) world
  | _ + 1, number, _, .ask (.pause duration) next, world =>
      let (signal?, world) := world.beginPause number duration
      (.paused signal? next, world)
  | fuel + 1, number, _, .iterate step start next, world =>
      follow fuel number
        ((step start).bind fun
          | .inl start => .iterate step start next
          | .inr result => next result) world
  | _ + 1, number, _, .both left right next, world =>
      let (leftNumber, rightNumber, world) := world.beginBoth number
      (.both leftNumber (.ready left) rightNumber (.ready right) next, world)
  | _ + 1, number, _, .within limit body next, world =>
      let (signal?, bodyNumber, world) := world.beginWithin number limit
      let lapse? := if signal?.isNone then some Lapse.expired else none
      (.within signal? bodyNumber (.ready body) lapse? next, world)

namespace Thread

variable {α : Type}

/-- Lets the player of a thread go on, given how its wait ended.

A player that waits for a body finds it ended, which counts however the wait came to its end; or it
interrupts the body and waits for its end, and then nothing but another interruption keeps it from
taking that end into account. -/
def resume (fuel number : Nat) (wake : Wake) : Thread τ α → World τ → Thread τ α × World τ
  | .ended result?, world => (.ended result?, world)
  | .ready scene, world =>
      match wake with
      | .due => follow fuel number scene world
      | .interrupted => (.ended none, world.arrange (·.finish number))
  | .paused signal? next, world => follow fuel number (next wake) (world.silence signal?)
  | .both _ left _ right next, world =>
      let results? := match wake, left.result?, right.result? with
        | .due, some b, some c => some (b, c)
        | _, _, _ => none
      follow fuel number (next results?) world
  | .within signal? bodyNumber body lapse? next, world =>
      match lapse? with
      | some lapse =>
          let lapse := match wake with
            | .due => lapse
            | .interrupted => .interrupted
          follow fuel number (next lapse body.result?) (world.silence signal?)
      | none =>
          if body.hasEnded then
            let lapse := if body.result?.isSome then .inTime else .interrupted
            follow fuel number (next lapse body.result?) (world.silence signal?)
          else
            let lapse := match wake with
              | .due => .expired
              | .interrupted => .interrupted
            (.within signal? bodyNumber body (some lapse) next, world.cutShort number bodyNumber)

/-- Lets a player go on in its turn, given how its wait ended.  The player is the one whose thread
this is, with a number of its own, or one of those that it waits for. -/
def goOn (fuel turn : Nat) (wake : Wake) :
    {α : Type} → (number : Nat) → Thread τ α → World τ → Thread τ α × World τ
  | _, number, .both left ofLeft right ofRight next, world =>
      if turn = number then resume fuel number wake (.both left ofLeft right ofRight next) world
      else
        let (ofLeft, world) := ofLeft.goOn fuel turn wake left world
        let (ofRight, world) := ofRight.goOn fuel turn wake right world
        (.both left ofLeft right ofRight next, world)
  | _, number, .within signal? bodyNumber body lapse? next, world =>
      if turn = number then
        resume fuel number wake (.within signal? bodyNumber body lapse? next) world
      else
        let (body, world) := body.goOn fuel turn wake bodyNumber world
        (.within signal? bodyNumber body lapse? next, world)
  | _, number, thread, world =>
      if turn = number then resume fuel number wake thread world else (thread, world)

end Thread

end Rehearsal
end Turnstile
