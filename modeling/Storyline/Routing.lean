import Storyline.Random
import Storyline.Variables

/-! # Routing

Which route a conditional or a probability node takes.
-/
namespace Storyline

open Number (Binary64)

namespace Variables

/-- A comparison that cannot be evaluated does not hold. -/
def satisfies (t : Variables) (c : Comparison) : Bool :=
  match t.compare c with
  | .ok b => b
  | .error _ => false

def opens (t : Variables) (r : GuardedRoute) : Bool :=
  r.mode.admits (r.comparisons.all t.satisfies) (r.comparisons.any t.satisfies)

def route (t : Variables) (routes : List GuardedRoute) (fallback : Option NodeId) :
    Option NodeId :=
  match (routes.filter t.opens).getLast? with
  | some r => some r.target
  | none => fallback

/-- The weight of a route, if it is a finite number that is not negative. -/
def weight? (t : Variables) (r : ChanceRoute) : Option Binary64 :=
  (Binary64.read (t.substitute r.weight)).filter fun w =>
    w.isFinite && (Binary64.zero false).le w

def weighted (t : Variables) (routes : List ChanceRoute) : List (Binary64 × NodeId) :=
  routes.filterMap fun r => (t.weight? r).map fun w => (w, r.target)

end Variables

/-- The first route up to which the weights, summed from `reached` on, exceed the sample; if none
does, the last. -/
def pick (sample reached : Binary64) (route : Binary64 × NodeId) :
    List (Binary64 × NodeId) → NodeId
  | [] => route.2
  | next :: rest =>
    if sample.lt (reached.add route.1) then route.2
    else pick sample (reached.add route.1) next rest

/-- Draws a route with a chance proportional to its weight. Without a usable weight nothing is
drawn. -/
def drawRoute (t : Variables) (routes : List ChanceRoute) (source : RandomSource) :
    Except Fault NodeId × RandomSource :=
  match t.weighted routes with
  | [] => (.error .noUsableRoute, source)
  | first :: rest =>
    let (u, source) := source.draw
    let total := (first :: rest).foldl (fun sum route => sum.add route.1) (Binary64.zero false)
    (.ok (pick (u.mul total) (Binary64.zero false) first rest), source)

end Storyline
