/-
# The picture of a chart

The values lie in a frame with ten lines across in each direction. Every series
has a colour of its own; its points are discs, and in the line style joined in
the order of the rows. Points that are not finite have no place.

Key definitions: `Drawing.canvas`, `Drawing.file`.
-/
import BenchLog.Chart.Spec
import BenchLog.Picture.Png

namespace BenchLog

/-- White, black and grey, and the colours of the series in turn. -/
def chartPalette : List (UInt8 × UInt8 × UInt8) :=
  [(255, 255, 255), (0, 0, 0), (225, 225, 225), (230, 25, 75), (60, 180, 75), (0, 130, 200),
   (245, 130, 48), (145, 30, 180), (70, 140, 140), (170, 110, 40), (128, 0, 0), (0, 0, 128)]

/-- The colour of a series. -/
def seriesColor (index : Nat) : Color := (3 + index % 9).toUInt8

/-- The frame: left, right, top and bottom. -/
def chartFrame : Int × Int × Int × Int := (80, 989, 45, 549)

namespace Drawing

/-- The place of a value between two ends, in so many steps. -/
def place (r : AxisRange Float) (steps : Nat) (x : Float) : Int :=
  ((x - r.start) / (r.stop - r.start) * Float.ofNat steps).floor.toInt64.toInt

/-- The point of the canvas where values lie, if they are finite. -/
def spot? (d : Drawing) (p : Float × Float) : Option (Int × Int) :=
  let (left, right, top, bottom) := chartFrame
  if p.1.isFinite && p.2.isFinite then
    some (left + place d.xRange (right - left).toNat p.1,
      bottom - place d.yRange (bottom - top).toNat p.2)
  else
    none

/-- An empty frame with its lines. -/
def frame : Canvas :=
  let (left, right, top, bottom) := chartFrame
  let lines := (List.range 11).foldl
    (fun (c : Canvas) (i : Nat) =>
      let x := left + (right - left) * i / 10
      let y := top + (bottom - top) * i / 10
      (c.segment 2 x top x bottom).segment 2 left y right y)
    (.blank size.1 size.2 0)
  (lines.segment 1 left top left bottom).segment 1 left bottom right bottom

/-- The canvas with a series drawn. -/
def drawSeries (style : ChartStyle) (c : Canvas) (color : Color) (spots : List (Int × Int)) :
    Canvas :=
  let radius := match style with
    | .scatter => 4
    | .line => 3
  let joined := match style with
    | .scatter => c
    | .line => (spots.zip spots.tail).foldl (fun c (p, q) => c.segment color p.1 p.2 q.1 q.2) c
  spots.foldl (fun c p => c.disc color radius p.1 p.2) joined

/-- The picture of a chart. -/
def canvas (d : Drawing) : Canvas :=
  d.points.zipIdx.foldl
    (fun c (points, i) => drawSeries d.style c (seriesColor i) (points.filterMap d.spot?))
    frame

/-- The picture as a file. -/
def file (d : Drawing) : ByteArray :=
  Png.file d.canvas chartPalette

end Drawing
end BenchLog
