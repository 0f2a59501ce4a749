import Turnstile.Proofs.Plan.Course

/-!
# Exchanges

An exchange is a request together with the answer to it.  What a plan has asked for and what it was
answered is a list of exchanges, in the order in which they came.
-/

namespace Turnstile
namespace Plan

universe u

abbrev Exchange (I : Interface.{u}) : Type u :=
  (r : I.Request) × I.Answer r

end Plan
end Turnstile
