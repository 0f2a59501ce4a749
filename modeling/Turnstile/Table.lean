/-!
# Tables

A table gives values to some names.  It is a list of pairs, and the first pair of a name counts.

## Main statements

`get?_put` and `get?_drop` say what a change does to every name.
-/

namespace Turnstile

/-- Values under names. -/
abbrev Table (β : Type) : Type :=
  List (String × β)

namespace Table

variable {β : Type}

def get? : Table β → String → Option β
  | [], _ => none
  | (other, value) :: rest, name => if other = name then some value else get? rest name

/-- Gives a name a value, in its old place if it had one. -/
def put : Table β → String → β → Table β
  | [], name, value => [(name, value)]
  | (other, old) :: rest, name, value =>
      if other = name then (other, value) :: rest else (other, old) :: put rest name value

def drop : Table β → String → Table β
  | [], _ => []
  | (other, value) :: rest, name =>
      if other = name then drop rest name else (other, value) :: drop rest name

theorem get?_put (table : Table β) (name other : String) (value : β) :
    (table.put name value).get? other = if name = other then some value else table.get? other := by
  induction table with
  | nil => rfl
  | cons pair rest ih =>
      obtain ⟨first, old⟩ := pair
      by_cases hname : first = name
      · subst hname
        by_cases hother : first = other
        · simp [put, get?, hother]
        · simp [put, get?, hother]
      · by_cases hother : first = other
        · subst hother
          simp [put, get?, hname, Ne.symm hname]
        · simp [put, get?, hname, hother, ih]

theorem get?_drop (table : Table β) (name other : String) :
    (table.drop name).get? other = if name = other then none else table.get? other := by
  induction table with
  | nil => simp [drop, get?]
  | cons pair rest ih =>
      obtain ⟨first, value⟩ := pair
      by_cases hname : first = name
      · subst hname
        by_cases hother : first = other
        · simp [drop, hother] at ih ⊢
          exact ih
        · simp [drop, get?, hother, ih]
      · by_cases hother : first = other
        · subst hother
          simp [drop, get?, hname, Ne.symm hname]
        · simp [drop, get?, hname, hother, ih]

end Table
end Turnstile
