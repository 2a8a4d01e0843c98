import ChipEight.Screen.Framebuffer

/-!
# The terminal display

A framebuffer and the picture of it that a terminal shows, in a box with a title. A present draws the picture only when the
framebuffer is marked, and takes the mark off before it draws.
-/

namespace ChipEight

/-- A framebuffer shown in a terminal. The terminal answers the `n`-th attempt to draw, counted from zero, with `answers n`. -/
structure TerminalDisplay (r : Resolution) where
  framebuffer : Framebuffer r
  /-- The lit points of the picture that was last drawn. -/
  shown : Option (List (Int × Int))
  /-- How many times drawing was tried. -/
  attempts : Nat
  answers : Nat → Option DeviceError

namespace TerminalDisplay

variable {r : Resolution}

/-- A display on which nothing was drawn yet. -/
def blank (r : Resolution) (answers : Nat → Option DeviceError) : TerminalDisplay r :=
  ⟨Framebuffer.blank r, none, 0, answers⟩

/-- Draws the picture of the framebuffer. If the terminal fails, it goes on showing what it showed. -/
def render (t : TerminalDisplay r) : Option DeviceError × TerminalDisplay r :=
  match t.answers t.attempts with
  | some error => (some error, { t with attempts := t.attempts + 1 })
  | none => (none, { t with attempts := t.attempts + 1, shown := some (r.litPoints t.framebuffer.bytes) })

/-- Draws the picture if the framebuffer changed since the last time. -/
def present (t : TerminalDisplay r) : Option DeviceError × TerminalDisplay r :=
  let taken := t.framebuffer.takeDirty
  let t := { t with framebuffer := taken.2 }
  if taken.1 then t.render else (none, t)

instance : Surface (TerminalDisplay r) where
  plot t x y :=
    let plotted := t.framebuffer.plot x y
    (plotted.1, { t with framebuffer := plotted.2 })
  clear t := { t with framebuffer := t.framebuffer.clear }
  present := present

/-- What the box around the picture is called. -/
def title : String := "CHIP-8"

/-- A row of the picture, with a half block for a lit pixel. -/
def pictureRow (r : Resolution) (points : List (Int × Int)) (y : Nat) : String :=
  String.ofList ((List.range r.width).map fun (x : Nat) => if points.contains ((x : Int), -(y : Int)) then '▄' else ' ')

/-- The rows a terminal shows: the box with its title and the picture in it, or nothing before the first picture. -/
def screenRows (t : TerminalDisplay r) : List String :=
  match t.shown with
  | none => []
  | some points =>
    let edge := String.ofList (List.replicate r.width '─')
    let top := String.ofList ((title ++ edge).toList.take r.width)
    ["┌" ++ top ++ "┐"] ++ (List.range r.height).map (fun y => "│" ++ pictureRow r points y ++ "│") ++ ["└" ++ edge ++ "┘"]

end TerminalDisplay

end ChipEight
