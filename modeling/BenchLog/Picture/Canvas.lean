/-
# Canvases

A canvas is a grid of colours, given by their numbers in a palette. Marks that
lie outside of it, or partly so, are cut off.

Key definitions: `Canvas`, `Canvas.blank`, `Canvas.mark`, `Canvas.disc`,
`Canvas.segment`.
-/
namespace BenchLog

/-- The number of a colour in a palette. -/
abbrev Color := UInt8

/-- A grid of colours, row by row from the top. -/
structure Canvas where
  width : Nat
  height : Nat
  pixels : Array Color
  size_eq : pixels.size = width * height

namespace Canvas

/-- A canvas of one colour. -/
def blank (width height : Nat) (color : Color) : Canvas where
  width
  height
  pixels := Array.replicate (width * height) color
  size_eq := Array.size_replicate

/-- Colours the point in column `x` and row `y`. -/
def mark (c : Canvas) (color : Color) (x y : Int) : Canvas :=
  if 0 ≤ x ∧ x < c.width ∧ 0 ≤ y ∧ y < c.height then
    { c with
      pixels := c.pixels.setIfInBounds (y.toNat * c.width + x.toNat) color
      size_eq := by rw [Array.size_setIfInBounds, c.size_eq] }
  else
    c

/-- The whole numbers from `-radius` to `radius`. -/
def around (radius : Nat) : List Int :=
  (List.range (2 * radius + 1)).map fun (i : Nat) => (i : Int) - radius

/-- Colours all points within a distance of a point. -/
def disc (c : Canvas) (color : Color) (radius : Nat) (x y : Int) : Canvas :=
  (around radius).foldl
    (fun c (dy : Int) => (around radius).foldl
      (fun c (dx : Int) =>
        if dx * dx + dy * dy ≤ radius * radius then c.mark color (x + dx) (y + dy) else c)
      c)
    c

/-- Colours the points from one point to another, two wide. -/
def segment (c : Canvas) (color : Color) (x y x' y' : Int) : Canvas :=
  let steps := max (x' - x).natAbs (y' - y).natAbs
  (List.range (steps + 1)).foldl
    (fun c (i : Nat) =>
      let px := x + (x' - x) * i / max steps 1
      let py := y + (y' - y) * i / max steps 1
      ((c.mark color px py).mark color (px + 1) py).mark color px (py + 1))
    c

end Canvas
end BenchLog
