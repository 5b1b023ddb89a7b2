import Pitwall.Driver.Car

/-!
# Tracks — their description and their map

The description of a track is written by hand, with numbers and texts used alike, so all of it
is read as text. The map tells where a point of the track lies on its image.
-/

namespace Pitwall

structure TrackInfo where
  name : String := ""
  city : String := ""
  country : String := ""
  description : String := ""
  length : String := ""
  pitboxes : String := ""
  width : String := ""
  run : String := ""
  deriving DecidableEq, BEq

namespace TrackInfo

instance : Inhabited TrackInfo := ⟨{}⟩

def record : Record TrackInfo where
  start := {}
  fields :=
    [.of "name" .anyText (·.name) (fun t v => { t with name := v }),
     .of "city" .anyText (·.city) (fun t v => { t with city := v }),
     .of "country" .anyText (·.country) (fun t v => { t with country := v }),
     .of "description" .anyText (·.description) (fun t v => { t with description := v }),
     .of "length" .anyText (·.length) (fun t v => { t with length := v }),
     .of "pitboxes" .anyText (·.pitboxes) (fun t v => { t with pitboxes := v }),
     .of "width" .anyText (·.width) (fun t v => { t with width := v }),
     .of "run" .anyText (·.run) (fun t v => { t with run := v })]

end TrackInfo

structure TrackMap where
  width : Binary32 := default
  height : Binary32 := default
  margin : Binary32 := default
  /-- Metres of a pixel. -/
  scale : Binary32 := .ofNat 1
  /-- What is added to the first coordinate. -/
  offsetX : Binary32 := default
  /-- What is added to the second coordinate. -/
  offsetY : Binary32 := default
  deriving DecidableEq, BEq

namespace TrackMap

instance : Inhabited TrackMap := ⟨{}⟩

/-- The point of the image where a point in space lies. A scale of zero counts as one. -/
def place (m : TrackMap) (p : Coords) : Binary32 × Binary32 :=
  let scale := if m.scale == .zero false then .ofNat 1 else m.scale
  ((p.x + m.offsetX + m.margin) / scale, (p.z + m.offsetY + m.margin) / scale)

def record : Record TrackMap where
  start := {}
  fields :=
    [.of "width" .single (·.width) (fun m v => { m with width := v }),
     .of "height" .single (·.height) (fun m v => { m with height := v }),
     .of "margin" .single (·.margin) (fun m v => { m with margin := v }),
     .of "scale_factor" .single (·.scale) (fun m v => { m with scale := v }),
     .of "offset_x" .single (·.offsetX) (fun m v => { m with offsetX := v }),
     (Field.of "offset_y" .single (·.offsetY) (fun m v => { m with offsetY := v })).orNamed
       "offset_z"]

end TrackMap

end Pitwall
