import ResourceWatch.Text.Numeral

/-!
# How mature an API version is

The name of an API version says how far it has come: `v2` is stable, `v1beta2`
and `v1alpha1` are not yet. Any other name says nothing. The most mature version
comes first: stable ones before beta ones before alpha ones, higher numbers
before lower ones, and names that say nothing last, in their own order.
-/

namespace ResourceWatch

inductive Maturity where
  | stable (major : Nat)
  | beta (major : Nat) (minor : Option Nat)
  | alpha (major : Nat) (minor : Option Nat)
  /-- The name says nothing. -/
  | unranked (name : String)
deriving DecidableEq, Repr

namespace Maturity

/-- The largest number in the name of a version. -/
def largest : Nat := Nat.pow 2 32 - 1

/-- The second number of a name, which may be missing. -/
def minor? : List Char → Option (Option Nat)
  | [] => some none
  | cs => (Text.readNat? largest (String.ofList cs)).map some

def read? : List Char → Option Maturity
  | 'v' :: cs => do
    let major ← Text.readNat? largest (String.ofList (cs.takeWhile Text.isDigit))
    match cs.dropWhile Text.isDigit with
    | [] => return .stable major
    | 'b' :: 'e' :: 't' :: 'a' :: rest => return .beta major (← minor? rest)
    | 'a' :: 'l' :: 'p' :: 'h' :: 'a' :: rest => return .alpha major (← minor? rest)
    | _ => none
  | _ => none

def ofName (name : String) : Maturity := (read? name.toList).getD (.unranked name)

/-- The stage, the first number and the second one; a missing second number is
below every other. -/
def rank : Maturity → Nat × Nat × Nat
  | .stable major => (3, major, 0)
  | .beta major minor => (2, major, minor.elim 0 (· + 1))
  | .alpha major minor => (1, major, minor.elim 0 (· + 1))
  | .unranked _ => (0, 0, 0)

/-- Whether `a` comes no later than `b` when the most mature comes first. -/
def le (a b : Maturity) : Bool :=
  match a, b with
  | .unranked a, .unranked b => a ≤ b
  | a, b =>
    let (stageA, majorA, minorA) := a.rank
    let (stageB, majorB, minorB) := b.rank
    stageB < stageA || (stageA == stageB && (majorB < majorA ||
      (majorA == majorB && minorB ≤ minorA)))

end Maturity

end ResourceWatch
