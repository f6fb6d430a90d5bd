import EquivalentCircuit.Numeric.Phasor
import EquivalentCircuit.Fault

/-! Moving an ideal ratio across a π-section. A section with series impedance `z = r + jx`, shunts
`ya = g1 + j b1` and `yb = g2 + j b2` and the ratio `a` at end2 has, with `y = 1 / z`, the
admittance matrix

    Y11 = ya + y            Y12 = -y / a
    Y21 = -y / conj a       Y22 = (yb + y) / |a|²

`PiSection.relocate` finds the section that keeps this matrix with the ratio `1 / a` at end1. The
section depends on `|a|` only; a phase shows in `Y12` and `Y21` alone, which no π-section holds. -/

namespace EquivalentCircuit

structure PiSection (α : Type) where
  r : α
  x : α
  g1 : α
  b1 : α
  g2 : α
  b2 : α
deriving DecidableEq

/-- Shunt admittance assigned to each end. -/
structure Shunts (α : Type) where
  g1 : α
  b1 : α
  g2 : α
  b2 : α
deriving DecidableEq

variable {α : Type} [Scalar α]

namespace Shunts

def totalG (s : Shunts α) : α := s.g1 + s.g2

def totalB (s : Shunts α) : α := s.b1 + s.b2

end Shunts

namespace PiSection

def ofShunts (r x : α) (s : Shunts α) : PiSection α := ⟨r, x, s.g1, s.b1, s.g2, s.b2⟩

def series (p : PiSection α) : Phasor α := ⟨p.r, p.x⟩

def shunt1 (p : PiSection α) : Phasor α := ⟨p.g1, p.b1⟩

def shunt2 (p : PiSection α) : Phasor α := ⟨p.g2, p.b2⟩

def ofPhasors (z ya yb : Phasor α) : PiSection α := ⟨z.re, z.im, ya.re, ya.im, yb.re, yb.im⟩

/-- Without series branch the ends are decoupled and only the shunts are rescaled. -/
def relocateShunts (a : Phasor α) (p : PiSection α) : PiSection α :=
  ofPhasors ⟨0, 0⟩ (p.shunt1.scaleDown a.normSq) (p.shunt2.scaleDown a.normSq)

/-- The section read off the admittance matrix that is kept. -/
def relocateSeries (a : Phasor α) (p : PiSection α) : PiSection α :=
  let y := p.series.inv
  let y11 := p.shunt1 + y
  let y12 := -y / a
  let y22 := (p.shunt2 + y).scaleDown a.normSq
  let series := -y12 / a.conj
  ofPhasors series.inv (y11.scaleDown a.normSq - series) (y22 - series)

/-- The section after a ratio has moved from end2 to end1. -/
def relocateBy (a : Phasor α) (p : PiSection α) : PiSection α :=
  if p.series.isZero then p.relocateShunts a else p.relocateSeries a

/-- The ratio of the given magnitude and angle moved from end2 to end1. The ratio one leaves the
section as it is. -/
def relocate (magnitude : α) (angle : Degrees α) (p : PiSection α) : Checked α (PiSection α) :=
  if !Scalar.isFinite magnitude || !Scalar.isPositive magnitude || !angle.isFinite then
    .error ⟨"structural ratio", .relocation magnitude angle⟩
  else if Scalar.equal magnitude 1 && Scalar.isZero angle.value then .ok p
  else .ok (p.relocateBy (.ofPolar magnitude angle.toRadians.value))

end PiSection

end EquivalentCircuit
