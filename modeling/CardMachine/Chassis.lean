/-!
# The body

What a host has to offer to move a machine about: a position, a heading, and the means to go forward
and to turn. `PlanarChassis` is the plain case, a point on an unbounded plane.
-/

namespace CardMachine

/-- A body that can be driven. -/
class Chassis (κ : Type) where
  x : κ → Float
  z : κ → Float
  /-- The heading, in radians. -/
  heading : κ → Float
  /-- Goes along the heading; a negative distance goes backwards. -/
  advance : κ → Float → κ
  /-- Turns by an angle in radians. -/
  turn : κ → Float → κ

/-- A point on the plane with a heading. -/
structure PlanarChassis where
  x : Float := 0
  z : Float := 0
  heading : Float := 0

instance : Chassis PlanarChassis where
  x := PlanarChassis.x
  z := PlanarChassis.z
  heading := PlanarChassis.heading
  advance body distance :=
    { body with
      x := body.x + body.heading.cos * distance
      z := body.z + body.heading.sin * distance }
  turn body angle := { body with heading := body.heading + angle }

/-- An angle in degrees, in radians. -/
def radians (degrees : Float) : Float := degrees * 0.017453292519943295

/-- An angle in radians, in degrees. -/
def degrees (radians : Float) : Float := radians * 57.29577951308232

/-- The length of the vector (`x`, `z`). The larger side is factored out, so that no square
overflows; an infinite side makes the length infinite. -/
def vectorLength (x z : Float) : Float :=
  if x.isInf || z.isInf then 1.0 / 0.0
  else
    let side := if x.abs < z.abs then z.abs else x.abs
    if side == 0.0 then x.abs + z.abs
    else side * ((x / side) * (x / side) + (z / side) * (z / side)).sqrt

end CardMachine
