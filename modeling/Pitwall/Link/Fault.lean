import Pitwall.Text.Quoted

/-!
# Faults — what can go wrong around the engine

The engine itself cannot fail; what can go wrong lies in addresses and files.
-/

namespace Pitwall

/-- What went wrong. -/
inductive Fault where
  /-- An address from which no messages can come. -/
  | invalidAddress (address : String)
  /-- A recording could not be written. -/
  | recordingNotWritten
  /-- There is no recording at a path. -/
  | noRecording (path : String)
  /-- A recording could not be read. -/
  | recordingNotRead
  | noSettingsDirectory
  /-- The settings could not be read or written. -/
  | settingsFile
  /-- The text of the settings is not valid. -/
  | settingsText
  deriving DecidableEq

def Fault.message : Fault → String
  | .invalidAddress address => "Invalid race control URL: " ++ address
  | .recordingNotWritten => "Error writing frame recording"
  | .noRecording path => "Invalid recording file: " ++ Text.quote path
  | .recordingNotRead => "Error loading recording file"
  | .noSettingsDirectory =>
    "Could not find application data directory to save config file"
  | .settingsFile => "Error reading or writing config file"
  | .settingsText => "Error serializing config file"

end Pitwall
