import Pitwall.Link.Address
import Pitwall.Main
import Pitwall.Proofs.Engine.History
import Pitwall.Proofs.Link.Client
import Pitwall.Proofs.Board.Places
import Pitwall.Proofs.Board.SameRecords
import Pitwall.Proofs.Link.Reading
import Pitwall.Proofs.Engine.Ticks
import Pitwall.Proofs.Json.Reading
import Pitwall.Proofs.Link.Recording
import Pitwall.Proofs.Link.Replay
import Pitwall.Proofs.Data.Sorting
import Pitwall.Proofs.Feed.Held
import Pitwall.Proofs.Data.Suffix
import Pitwall.Proofs.Feed.Shown
import Pitwall.Proofs.Board.Standing
import Pitwall.Proofs.Engine.Returning
import Pitwall.Proofs.Board.Peers
import Pitwall.Proofs.Engine.Interleaving
import Pitwall.Proofs.Feed.Once
import Pitwall.Proofs.Engine.Confined
import Pitwall.Proofs.Engine.Unchanged
import Pitwall.Proofs.Engine.Numbering
import Pitwall.Proofs.Engine.Steps
import Pitwall.Proofs.Engine.Belonging
import Pitwall.Proofs.Engine.Drawn
import Pitwall.Engine.Counting
import Pitwall.Proofs.Board.Records
import Pitwall.Proofs.Engine.Counting
import Pitwall.Proofs.Engine.Headroom
import Pitwall.Proofs.Display.Standings
import Pitwall.Proofs.Event.Kinds
import Pitwall.Proofs.Event.Respelling
import Pitwall.Proofs.Session.RoundTrip
import Pitwall.Proofs.Engine.Stint
import Pitwall.Proofs.Engine.BestSplits
import Pitwall.Proofs.Data.Lineup
import Pitwall.Proofs.Board.Seating
import Pitwall.Proofs.Board.Slots
import Pitwall.Proofs.Board.Bystanders
import Pitwall.Proofs.Engine.Connecting
import Pitwall.Proofs.Engine.Rejoining
import Pitwall.Proofs.Engine.SplitFlags
import Pitwall.Proofs.Board.LeftStanding
import Pitwall.Proofs.Engine.Leaving
import Pitwall.Proofs.Engine.Jobs
import Pitwall.Proofs.Feed.Sweeping
import Pitwall.Proofs.Engine.Leaderboard
import Pitwall.Proofs.Engine.CollisionHistory
import Pitwall.Proofs.Engine.Announcing
import Pitwall.Proofs.Board.Clock
import Pitwall.Proofs.Feed.Scrollback
import Pitwall.Proofs.Display.Cards
import Pitwall.Proofs.Link.Cutting
import Pitwall.Proofs.Text.Blank
import Pitwall.Proofs.Link.Address
import Pitwall.Proofs.Display.Weather
import Pitwall.Proofs.Display.LapTime
import Pitwall.Proofs.Link.Backoff
import Pitwall.Proofs.Link.Settings
