import LinkTrail.Decimal.General

namespace LinkTrail

structure Seconds where
  value : Float
deriving DecidableEq, Repr

namespace Seconds

instance : OfNat Seconds n := ⟨⟨Float.ofNat n⟩⟩

instance : Add Seconds := ⟨fun a b => ⟨a.value + b.value⟩⟩

instance : LE Seconds := ⟨fun a b => a.value ≤ b.value⟩

instance : LT Seconds := ⟨fun a b => a.value < b.value⟩

instance (a b : Seconds) : Decidable (a ≤ b) :=
  inferInstanceAs (Decidable (a.value ≤ b.value))

instance (a b : Seconds) : Decidable (a < b) :=
  inferInstanceAs (Decidable (a.value < b.value))

/-- The span that a clock cannot tell from none. -/
def grain : Seconds := ⟨1e-9⟩

/-- Later than any number of seconds. -/
def endOfTime : Seconds := ⟨1 / 0⟩

def render (s : Seconds) : String := Decimal.renderFloat s.value

end Seconds

/-- Timers differ where the clock reads so much that adding a grain to it changes nothing: there a
strict one lets its deadline pass before it goes off, and a prompt one does not. -/
inductive Timer where
  | strict
  | prompt
deriving DecidableEq, Repr

/-- A deadline has come when it lies less than a grain ahead, and when it is not a number. -/
def Timer.isDue (timer : Timer) (deadline clock : Seconds) : Bool :=
  !decide (clock + Seconds.grain ≤ deadline) || timer = prompt && decide (deadline ≤ clock)

end LinkTrail
