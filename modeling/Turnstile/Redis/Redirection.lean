import Turnstile.Text.Numeral
import Turnstile.Text.Quoted

/-!
# Redirections

A server that does not keep a key itself can send its client to the node that does.  It names the
slot of the key and the node in one text, `<slot> <host>:<number>`, and the client has to be able
to read it.

## Main definitions

* `Redirection.ofText` - reads a redirection, or says what is wrong with it.
-/

namespace Turnstile
namespace Redis

structure Redirection where
  slot : Int
  host : String
  /-- The number at which the node listens. -/
  portNumber : Int
  deriving DecidableEq

namespace Redirection

inductive Defect where
  | tooFewParts
  | tooManyParts
  | notNumber (text : String)
  | tooLong (digits : Nat)
  deriving DecidableEq

/-- The wording of a defect.  A text that is not a number is shown up to its two-hundredth
character, its quotes included. -/
def Defect.message : Defect → String
  | .tooFewParts => "not enough values to unpack (expected 2, got 1)"
  | .tooManyParts => "too many values to unpack (expected 2)"
  | .notNumber text =>
      "invalid literal for int() with base 10: " ++
        String.ofList ((quoted text).toList.take 200)
  | .tooLong digits =>
      "Exceeds the limit (" ++ toString Numeral.digitLimit ++
        " digits) for integer string conversion: value has " ++ toString digits ++
        " digits; use sys.set_int_max_str_digits() to increase the limit"

def halves? (mark : Char) (cs : List Char) : Option (List Char × List Char) :=
  match cs.dropWhile (· != mark) with
  | [] => none
  | _ :: rest => some (cs.takeWhile (· != mark), rest)

theorem eq_of_halves? {mark : Char} {cs before after : List Char}
    (h : halves? mark cs = some (before, after)) : cs = before ++ mark :: after := by
  unfold halves? at h
  cases hdrop : cs.dropWhile (· != mark) with
  | nil =>
      rw [hdrop] at h
      cases h
  | cons c rest =>
      rw [hdrop] at h
      cases h
      have hmark : c = mark := by
        have hhead := List.head?_dropWhile_not (· != mark) cs
        simpa [hdrop] using hhead
      rw [← hmark, ← hdrop, hmark]
      exact List.takeWhile_append_dropWhile.symm

def number (cs : List Char) : Except Defect Int :=
  let text := String.ofList cs
  match Numeral.ofText text with
  | .error .malformed => .error (.notNumber text)
  | .error (.tooLong digits) => .error (.tooLong digits)
  | .ok n => .ok n

/-- Reads a redirection.  Exactly one space stands between slot and node, and the host of the node
goes up to the last colon. -/
def ofText (text : String) : Except Defect Redirection :=
  match halves? ' ' text.toList with
  | none => .error .tooFewParts
  | some (slot, node) =>
      if node.contains ' ' then .error .tooManyParts
      else
        match halves? ':' node.reverse with
        | none => .error .tooFewParts
        | some (portNumber, host) => do
            let slot ← number slot
            let portNumber ← number portNumber.reverse
            pure ⟨slot, String.ofList host.reverse, portNumber⟩

end Redirection
end Redis
end Turnstile
