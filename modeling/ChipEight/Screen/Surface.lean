/-!
# Surfaces

What a session draws on. A surface can toggle a pixel, turn all pixels off, and be asked to put pending changes where they can be
seen. Its size and what happens at its edges are its own affair.
-/

namespace ChipEight

/-- Why a device did not do what it was asked. -/
structure DeviceError where
  kind : String
  message : String
  deriving DecidableEq, Repr

/-- What a type needs so that sprites can be drawn on it. -/
class Surface (σ : Type) where
  /-- Toggles a pixel, and says whether it was lit before. -/
  plot : σ → Nat → Nat → Bool × σ
  /-- Turns every pixel off. -/
  clear : σ → σ
  /-- Puts pending changes where they can be seen, and says what went wrong if something did. -/
  present : σ → Option DeviceError × σ

namespace Surface

/-- Toggles pixels one after the other, and says whether any of them was lit when its turn came. -/
def plotAll {σ : Type} [Surface σ] (s : σ) : List (Nat × Nat) → Bool × σ
  | [] => (false, s)
  | (x, y) :: rest =>
    let first := plot s x y
    let others := plotAll first.2 rest
    (first.1 || others.1, others.2)

end Surface

/-- A surface seen over a link. The link counts the presents and answers the `n`-th of them, counted from zero, with
`answers n`; an error means that the surface behind it never heard of the request. -/
structure Linked (σ : Type) where
  surface : σ
  presents : Nat
  answers : Nat → Option DeviceError

namespace Linked

/-- A link that carries a number of presents and then always answers with the same error. Without a number it carries all. -/
def carrying {σ : Type} (surface : σ) (limit : Option Nat) (error : DeviceError) : Linked σ where
  surface := surface
  presents := 0
  answers n := limit.bind fun most => if n < most then none else some error

instance {σ : Type} [Surface σ] : Surface (Linked σ) where
  plot l x y :=
    let plotted := Surface.plot l.surface x y
    (plotted.1, { l with surface := plotted.2 })
  clear l := { l with surface := Surface.clear l.surface }
  present l :=
    match l.answers l.presents with
    | some error => (some error, { l with presents := l.presents + 1 })
    | none =>
      let presented := Surface.present l.surface
      (presented.1, { l with surface := presented.2, presents := l.presents + 1 })

end Linked

end ChipEight
