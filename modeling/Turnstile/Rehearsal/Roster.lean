import Turnstile.Rehearsal.Alarm

/-!
# The roster

In a cooperative rehearsal several players share the stage.  They take turns: a player goes on
until it has to wait, and then it is somebody else's turn.  The roster knows what each player
waits for and whose turn it is, but nothing about what they play.

A player waits for a signal.  The signal is given by an alarm, or by other players when they end,
and then the player gets a turn after all turns that are on the roster already.

## Interruption

A player that waits is interrupted by withdrawing its signal, which gives it a turn like the
signal itself.  If it waits for its legs, they are interrupted in its place, and it goes on once
they have ended.  A player that does not wait, or whose signal was given already, is interrupted
when it goes on, or when it has to wait next.

## Main definitions

* `Roster.enter`, `Roster.await`, `Roster.goOn` and `Roster.finish` - the life of a player.
* `Roster.interrupt` - interrupts a player.
* `Roster.takeTurns` - the turns that are to be taken next.
-/

namespace Turnstile
namespace Rehearsal

inductive Wake where
  | due
  | interrupted
  deriving DecidableEq

structure Signal where
  number : Nat
  /-- How many times it is still to be given. -/
  missing : Nat := 1
  /-- The players that give it when they end, if they are legs of the player that waits. -/
  legs : List Nat := []
  withdrawn : Bool := false

/-- Whether nothing more can happen to a signal.  One that legs give is only over when they have
ended. -/
def Signal.isOver (signal : Signal) : Bool :=
  signal.missing == 0 || (signal.withdrawn && signal.legs.isEmpty)

structure Player where
  waitsFor : Option Signal := none
  /-- Whether it is to be interrupted at the next opportunity. -/
  interrupted : Bool := false
  ended : Bool := false
  /-- The number of the signal that is given when it ends. -/
  announces : Option Nat := none

inductive Turn where
  | play (player : Nat)
  | give (signal : Nat)

/-- The players, each told apart by its place, and whose turn it is. -/
structure Roster (τ : Type) where
  players : List Player := []
  turns : List Turn := []
  /-- How many signals there have been. -/
  signals : Nat := 0
  alarms : List (Alarm τ) := []

namespace Roster

variable {τ : Type} [Seconds τ]

def addTurn (turn : Turn) (roster : Roster τ) : Roster τ :=
  { roster with turns := roster.turns ++ [turn] }

def update (number : Nat) (change : Player → Player) (roster : Roster τ) : Roster τ :=
  { roster with players := roster.players.modify number change }

/-- A new player, whose first turn comes after all others. -/
def enter (announces : Option Nat) (roster : Roster τ) : Nat × Roster τ :=
  let number := roster.players.length
  let player : Player := { announces := announces }
  let roster := { roster with players := roster.players ++ [player] }
  (number, roster.addTurn (.play number))

def newSignal (roster : Roster τ) : Nat × Roster τ :=
  (roster.signals, { roster with signals := roster.signals + 1 })

def setAlarm (time : τ) (signal : Nat) (roster : Roster τ) : Roster τ :=
  { roster with alarms := Alarm.insert ⟨time, signal, false⟩ roster.alarms }

def silence (signal : Nat) (roster : Roster τ) : Roster τ :=
  { roster with alarms := Alarm.silence signal roster.alarms }

def hasEnded (number : Nat) (roster : Roster τ) : Bool :=
  (roster.players[number]?).any (·.ended)

/-- Interrupts a player, and tells whether it had not ended.  Legs have legs of their own only to
a certain depth. -/
def interruptTo : (depth : Nat) → (number : Nat) → Roster τ → Bool × Roster τ
  | 0, _, roster => (false, roster)
  | depth + 1, number, roster =>
      let later := roster.update number fun player => { player with interrupted := true }
      let withdraw := fun (signal : Signal) (roster : Roster τ) =>
        roster.update number fun player =>
          { player with waitsFor := some { signal with withdrawn := true } }
      match roster.players[number]? with
      | none => (false, roster)
      | some player =>
          if player.ended then (false, roster)
          else
            match player.waitsFor with
            | none => (true, later)
            | some signal =>
                if signal.isOver then (true, later)
                else if signal.legs.isEmpty then
                  (true, (withdraw signal roster).addTurn (.play number))
                else
                  let (any, roster) := signal.legs.foldl
                    (fun (any, roster) leg =>
                      let (running, roster) := interruptTo depth leg roster
                      (any || running, roster)) (false, roster)
                  (true, if any then withdraw signal roster else later)

def interrupt (number : Nat) (roster : Roster τ) : Bool × Roster τ :=
  interruptTo roster.players.length number roster

/-- Lets a player wait.  If it is to be interrupted it is interrupted at once. -/
def await (number : Nat) (signal : Signal) (roster : Roster τ) : Roster τ :=
  let isInterrupted := (roster.players[number]?).any (·.interrupted)
  let roster := roster.update number fun player =>
    { player with waitsFor := some signal, interrupted := false }
  if isInterrupted then (roster.interrupt number).2 else roster

/-- Lets a player go on in its turn, and tells how its wait ended. -/
def goOn (number : Nat) (roster : Roster τ) : Wake × Roster τ :=
  let isInterrupted := (roster.players[number]?).any fun player =>
    player.interrupted || player.waitsFor.any (·.withdrawn)
  (if isInterrupted then .interrupted else .due,
    roster.update number fun player => { player with waitsFor := none, interrupted := false })

/-- Lets a player end.  If that gives a signal it does so in a turn of its own. -/
def finish (number : Nat) (roster : Roster τ) : Roster τ :=
  let announces := (roster.players[number]?).bind (·.announces)
  let roster := roster.update number fun player => { player with ended := true }
  match announces with
  | none => roster
  | some signal => roster.addTurn (.give signal)

def redirect (number signal : Nat) (roster : Roster τ) : Roster τ :=
  roster.update number fun player => { player with announces := some signal }

/-- Whether a player waits for a signal that can still be given. -/
def Player.awaits (signal : Nat) (player : Player) : Bool :=
  player.waitsFor.any fun awaited => awaited.number == signal && !awaited.isOver

/-- Gives a signal.  If that was the last time, the player that waits for it gets a turn.  Nothing
happens if nobody waits for it any more. -/
def give (signal : Nat) (roster : Roster τ) : Roster τ :=
  match roster.players.findIdx? (Player.awaits signal) with
  | none => roster
  | some number =>
      let roster := roster.update number fun player =>
        { player with waitsFor := player.waitsFor.map fun awaited =>
            { awaited with missing := awaited.missing - 1 } }
      if (roster.players[number]?).any fun player => player.waitsFor.any (·.isOver) then
        roster.addTurn (.play number)
      else roster

def dropSilenced (roster : Roster τ) : Roster τ :=
  { roster with alarms := Alarm.dropSilenced roster.alarms.length roster.alarms }

/-- The time of the next alarm, if it is nobody's turn before it goes off. -/
def nextTime? (roster : Roster τ) : Option τ :=
  if roster.turns.isEmpty then roster.dropSilenced.alarms.head?.map (·.time) else none

/-- Lets the alarms go off that are due.  Their signals are given after all turns that are on the
roster already. -/
def ring (now : τ) : (steps : Nat) → Roster τ → Roster τ
  | 0, roster => roster
  | steps + 1, roster =>
      match roster.alarms with
      | [] => roster
      | alarm :: _ =>
          if alarm.isDue now then
            let roster := { roster with alarms := Alarm.removeHead roster.alarms }
            ring now steps (roster.addTurn (.give alarm.signal))
          else roster

/-- Takes all turns from the roster, those of alarms that are due included. -/
def takeTurns (now : τ) (roster : Roster τ) : List Turn × Roster τ :=
  let roster := roster.dropSilenced
  let roster := roster.ring now roster.alarms.length
  (roster.turns, { roster with turns := [] })

end Roster

end Rehearsal
end Turnstile
