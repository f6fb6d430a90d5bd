import EquivalentCircuit.Numeric.Scalar

/-! Complex numbers in rectangular form. Each operation is the textbook formula on the two parts,
in the order written here. -/

namespace EquivalentCircuit

structure Phasor (α : Type) where
  re : α
  im : α
deriving DecidableEq

namespace Phasor

variable {α : Type} [Scalar α]

instance : Add (Phasor α) := ⟨fun z w => ⟨z.re + w.re, z.im + w.im⟩⟩

instance : Sub (Phasor α) := ⟨fun z w => ⟨z.re - w.re, z.im - w.im⟩⟩

instance : Neg (Phasor α) := ⟨fun z => ⟨-z.re, -z.im⟩⟩

def conj (z : Phasor α) : Phasor α := ⟨z.re, -z.im⟩

/-- The square of the magnitude. -/
def normSq (z : Phasor α) : α := z.re * z.re + z.im * z.im

def inv (z : Phasor α) : Phasor α := ⟨z.re / z.normSq, -z.im / z.normSq⟩

instance : Div (Phasor α) where
  div z w := ⟨(z.re * w.re + z.im * w.im) / w.normSq, (z.im * w.re - z.re * w.im) / w.normSq⟩

/-- The quotient by a real number. -/
def scaleDown (z : Phasor α) (k : α) : Phasor α := ⟨z.re / k, z.im / k⟩

/-- The number of magnitude `r` at `theta` radians. -/
def ofPolar (r theta : α) : Phasor α := ⟨r * Scalar.cos theta, r * Scalar.sin theta⟩

def isZero (z : Phasor α) : Bool := Scalar.isZero z.re && Scalar.isZero z.im

end Phasor

end EquivalentCircuit
