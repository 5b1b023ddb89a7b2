import Pitwall.Board.Basic

/-!
# Progress — what the session clock shows

Before its start a session counts down. A session that runs on time then shows the time that
remains, one that is counted in laps the laps that remain for the leader, and a session without
either shows nothing. All durations are nanoseconds.
-/

namespace Pitwall

/-- What the session clock shows. -/
inductive Progress where
  /-- The session has not started yet. -/
  | countdown (remaining : Int)
  /-- Days and a rest below a day remain. -/
  | timeRemaining (days : Int) (remaining : Int)
  /-- Laps remain for the leader. -/
  | lapsRemaining (laps : Int)
  /-- There is nothing to show. -/
  | indeterminate
  deriving DecidableEq

/-- Nanoseconds of a minute. -/
def nanosPerMinute : Int := 60 * nanosPerSecond

/-- Nanoseconds of a day. -/
def nanosPerDay : Int := secondsPerDay * nanosPerSecond

namespace Progress

instance : Inhabited Progress := ⟨.indeterminate⟩

/-- Hours, minutes and seconds of a duration; nothing below zero is shown. -/
def clockText (nanos : Int) : List Char :=
  let seconds := (nanos / nanosPerSecond).toNat
  Text.padded 2 (seconds / 3600) ++ ':' :: Text.padded 2 (seconds / 60 % 60) ++
    ':' :: Text.padded 2 (seconds % 60)

/-- The clock as text. -/
def text : Progress → String
  | .countdown remaining => "Countdown: " ++ String.ofList (clockText remaining)
  | .timeRemaining days remaining =>
    if days = 0 then String.ofList (clockText remaining)
    else if days = 1 then "1 day + " ++ String.ofList (clockText remaining)
    else String.ofList (Text.signed days) ++ " days + " ++ String.ofList (clockText remaining)
  | .lapsRemaining laps => String.ofList (Text.signed laps) ++ " laps remaining"
  | .indeterminate => ""

end Progress

namespace Board

/-- What the session clock shows at a time. -/
def progress (b : Board) (now : Instant) : Progress :=
  if !b.initialised then .indeterminate
  else
    let elapsed := b.startedAt.elapsed now
    let wait : Int := b.session.waitSeconds.toNat * nanosPerSecond
    if elapsed < wait then .countdown (wait - elapsed)
    else if 0 < b.session.minutes then
      let remaining := max (b.session.minutes.toNat * nanosPerMinute + wait - elapsed) 0
      .timeRemaining (remaining / nanosPerDay) (remaining % nanosPerDay)
    else if 0 < b.session.laps then
      .lapsRemaining (b.session.laps.toNat - (b.leader?.elim 0 Driver.totalLaps).toNat)
    else .indeterminate

end Board

end Pitwall
