import Pitwall.Wire.Record

/-!
# Sessions — what is driven, where and for how long
-/

namespace Pitwall

inductive SessionKind where
  /-- Drivers book their cars. -/
  | booking
  | practice
  | qualifying
  /-- The order at the end counts. -/
  | race
  /-- A kind that is not known here. -/
  | other (code : UInt8)
  deriving DecidableEq

namespace SessionKind

instance : Inhabited SessionKind := ⟨.booking⟩

/-- The kind with the given code. -/
def ofCode (code : UInt8) : SessionKind :=
  if code = 0 then .booking
  else if code = 1 then .practice
  else if code = 2 then .qualifying
  else if code = 3 then .race
  else .other code

def code : SessionKind → UInt8
  | .booking => 0
  | .practice => 1
  | .qualifying => 2
  | .race => 3
  | .other code => code

def name : SessionKind → String
  | .booking => "Booking"
  | .practice => "Practice"
  | .qualifying => "Qualifying"
  | .race => "Race"
  | .other _ => "Unknown session"

theorem code_ofCode (code : UInt8) : (ofCode code).code = code := by
  unfold ofCode
  repeat' split
  all_goals simp_all [SessionKind.code]

def codec : Codec SessionKind := Codec.uint8.map ofCode code

end SessionKind

/-- A session as the server describes it. -/
structure SessionInfo where
  version : UInt8 := 0
  index : UInt8 := 0
  /-- The number of the session under way. -/
  currentIndex : UInt8 := 0
  count : UInt8 := 0
  serverName : String := ""
  track : String := ""
  layout : String := ""
  name : String := ""
  kind : SessionKind := .booking
  /-- The scheduled length in minutes; 0 when the session is counted in laps. -/
  minutes : UInt16 := 0
  /-- The scheduled number of laps; 0 when the session runs on time. -/
  laps : UInt16 := 0
  /-- Seconds to wait before the session starts. -/
  waitSeconds : UInt16 := 0
  ambientTemp : UInt8 := 0
  roadTemp : UInt8 := 0
  /-- The weather, with parameters. -/
  weather : String := ""
  /-- Milliseconds that have passed. -/
  elapsedMillis : Int32 := 0
  /-- Whether every driver is alone on the track. -/
  isSolo : Bool := false
  deriving DecidableEq, BEq

namespace SessionInfo

instance : Inhabited SessionInfo := ⟨{}⟩

def record : Record SessionInfo where
  start := {}
  fields :=
    [.of "Version" .uint8 (·.version) (fun s v => { s with version := v }),
     .of "SessionIndex" .uint8 (·.index) (fun s v => { s with index := v }),
     .of "CurrentSessionIndex" .uint8 (·.currentIndex) (fun s v => { s with currentIndex := v }),
     .of "SessionCount" .uint8 (·.count) (fun s v => { s with count := v }),
     .of "ServerName" .string (·.serverName) (fun s v => { s with serverName := v }),
     .of "Track" .string (·.track) (fun s v => { s with track := v }),
     .of "TrackConfig" .string (·.layout) (fun s v => { s with layout := v }),
     .of "Name" .string (·.name) (fun s v => { s with name := v }),
     .of "Type" SessionKind.codec (·.kind) (fun s v => { s with kind := v }),
     .of "Time" .uint16 (·.minutes) (fun s v => { s with minutes := v }),
     .of "Laps" .uint16 (·.laps) (fun s v => { s with laps := v }),
     .of "WaitTime" .uint16 (·.waitSeconds) (fun s v => { s with waitSeconds := v }),
     .of "AmbientTemp" .uint8 (·.ambientTemp) (fun s v => { s with ambientTemp := v }),
     .of "RoadTemp" .uint8 (·.roadTemp) (fun s v => { s with roadTemp := v }),
     .of "WeatherGraphics" .string (·.weather) (fun s v => { s with weather := v }),
     .of "ElapsedMilliseconds" .int32 (·.elapsedMillis)
       (fun s v => { s with elapsedMillis := v }),
     .of "IsSolo" .bool (·.isSolo) (fun s v => { s with isSolo := v })]

end SessionInfo

end Pitwall
