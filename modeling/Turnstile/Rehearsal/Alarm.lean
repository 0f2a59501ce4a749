import Turnstile.Number.Seconds

/-!
# Alarms

An alarm gives a signal at a point in time.  All alarms that are set are kept in one list, in the
order in which a binary tree is read level by level: the children of the alarm at place `n` are at
the places `2 * n + 1` and `2 * n + 2`, and a child does not go off before its parent.  So the
alarm that goes off next is at the head of the list.

An alarm whose time is undefined goes off neither before nor after any other.  It stays where it
was put, and keeps those below it from rising past it.

An alarm that is silenced stays where it is as well, until it comes to the head.

## Main definitions

* `Alarm.insert` and `Alarm.removeHead` - the two ways in which the list changes its size.
* `Alarm.silence` - calls an alarm off.
-/

namespace Turnstile
namespace Rehearsal

structure Alarm (τ : Type) where
  time : τ
  /-- The number of the signal.  Later signals have larger numbers. -/
  signal : Nat
  silenced : Bool := false

namespace Alarm

variable {τ : Type}

def parent (place : Nat) : Nat :=
  (place - 1) / 2

def exchange (m n : Nat) (alarms : List (Alarm τ)) : List (Alarm τ) :=
  match alarms[m]?, alarms[n]? with
  | some a, some b => (alarms.set m b).set n a
  | _, _ => alarms

@[simp]
theorem length_exchange (m n : Nat) (alarms : List (Alarm τ)) :
    (exchange m n alarms).length = alarms.length := by
  unfold exchange
  split
  · simp
  · rfl

def silence (signal : Nat) (alarms : List (Alarm τ)) : List (Alarm τ) :=
  alarms.map fun alarm =>
    if alarm.signal = signal then { alarm with silenced := true } else alarm

variable [Seconds τ]

/-- Whether an alarm goes off before another one.  Of two alarms for the same time the one that
was set first does. -/
def isBefore (a b : Alarm τ) : Bool :=
  decide (a.time < b.time) || (Seconds.same a.time b.time && decide (a.signal < b.signal))

def isDue (now : τ) (alarm : Alarm τ) : Bool :=
  !decide (now < alarm.time)

/-- Moves the alarm at a place up as long as it goes off before the one above it. -/
def rise : (steps place : Nat) → List (Alarm τ) → List (Alarm τ)
  | 0, _, alarms => alarms
  | steps + 1, place, alarms =>
      match alarms[place]?, alarms[parent place]? with
      | some alarm, some above =>
          if alarm.isBefore above then
            rise steps (parent place) (exchange place (parent place) alarms)
          else alarms
      | _, _ => alarms

/-- The child of a place that goes off first.  It is the right one unless the left one goes off
before it. -/
def firstChild (place : Nat) (alarms : List (Alarm τ)) : Option Nat :=
  match alarms[2 * place + 1]?, alarms[2 * place + 2]? with
  | some left, some right => some (if left.isBefore right then 2 * place + 1 else 2 * place + 2)
  | some _, none => some (2 * place + 1)
  | none, _ => none

/-- Moves the alarm at a place down as far as possible and from there up to where it belongs. -/
def settle : (steps place : Nat) → List (Alarm τ) → List (Alarm τ)
  | 0, _, alarms => alarms
  | steps + 1, place, alarms =>
      match firstChild place alarms with
      | some child => settle steps child (exchange place child alarms)
      | none => rise place place alarms

def insert (alarm : Alarm τ) (alarms : List (Alarm τ)) : List (Alarm τ) :=
  rise alarms.length alarms.length (alarms ++ [alarm])

/-- Removes the alarm at the head.  The last one takes its place and is moved to where it
belongs. -/
def removeHead (alarms : List (Alarm τ)) : List (Alarm τ) :=
  match alarms.tail, alarms.getLast? with
  | [], _ => []
  | _ :: _, none => []
  | _ :: _, some last => settle alarms.length 0 (last :: alarms.tail.dropLast)

@[simp]
theorem length_rise (steps place : Nat) (alarms : List (Alarm τ)) :
    (rise steps place alarms).length = alarms.length := by
  induction steps generalizing place alarms with
  | zero => rfl
  | succ steps ih =>
      unfold rise
      split
      · split
        · rw [ih, length_exchange]
        · rfl
      · rfl

@[simp]
theorem length_settle (steps place : Nat) (alarms : List (Alarm τ)) :
    (settle steps place alarms).length = alarms.length := by
  induction steps generalizing place alarms with
  | zero => rfl
  | succ steps ih =>
      unfold settle
      split
      · rw [ih, length_exchange]
      · rw [length_rise]

theorem length_insert (alarm : Alarm τ) (alarms : List (Alarm τ)) :
    (insert alarm alarms).length = alarms.length + 1 := by
  unfold insert
  rw [length_rise, List.length_append, List.length_singleton]

theorem length_removeHead (alarms : List (Alarm τ)) :
    (removeHead alarms).length = alarms.length - 1 := by
  cases alarms with
  | nil => rfl
  | cons alarm rest =>
      cases rest with
      | nil => rfl
      | cons next rest => simp [removeHead, List.getLast?_cons]

def dropSilenced : (steps : Nat) → List (Alarm τ) → List (Alarm τ)
  | 0, alarms => alarms
  | _ + 1, [] => []
  | steps + 1, alarm :: rest =>
      if alarm.silenced then dropSilenced steps (removeHead (alarm :: rest)) else alarm :: rest

end Alarm

end Rehearsal
end Turnstile
