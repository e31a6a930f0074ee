import ReviewQueue.Cli.Command
import ReviewQueue.Cli.Files
import ReviewQueue.Cli.Flag
import ReviewQueue.Cli.Run
import ReviewQueue.Cli.World
import ReviewQueue.Clock
import ReviewQueue.Console.Basic
import ReviewQueue.Console.Details
import ReviewQueue.Console.Elapsed
import ReviewQueue.Console.Prompt
import ReviewQueue.Console.Table
import ReviewQueue.Domain.Codec
import ReviewQueue.Domain.Status
import ReviewQueue.Domain.Submission
import ReviewQueue.Domain.Verdict
import ReviewQueue.Draft.Call
import ReviewQueue.Draft.Prompt
import ReviewQueue.Draft.Reply
import ReviewQueue.Http.Message
import ReviewQueue.Http.StatusText
import ReviewQueue.Import.Codec
import ReviewQueue.Import.File
import ReviewQueue.Import.Run
import ReviewQueue.Json.Basic
import ReviewQueue.Json.Canonical
import ReviewQueue.Json.Fill
import ReviewQueue.Json.Layout
import ReviewQueue.Json.Reader
import ReviewQueue.Main
import ReviewQueue.Notices
import ReviewQueue.Number.Binary64
import ReviewQueue.Number.Literal
import ReviewQueue.PathTemplate.Basic
import ReviewQueue.PathTemplate.Expand
import ReviewQueue.PathTemplate.Matcher
import ReviewQueue.PathTemplate.Program
import ReviewQueue.PathTemplate.Reader
import ReviewQueue.PidFile
import ReviewQueue.Proofs.Domain.Codec
import ReviewQueue.Proofs.Domain.Parts
import ReviewQueue.Proofs.Domain.RoundTrip
import ReviewQueue.Proofs.Http.Target
import ReviewQueue.Proofs.Import.Run
import ReviewQueue.Proofs.Json.Fill
import ReviewQueue.Proofs.Json.Layout
import ReviewQueue.Proofs.Json.Number
import ReviewQueue.Proofs.Json.Reader
import ReviewQueue.Proofs.Json.Spelling
import ReviewQueue.Proofs.PathTemplate.Expand
import ReviewQueue.Proofs.PathTemplate.Matcher
import ReviewQueue.Proofs.Query.Browsed
import ReviewQueue.Proofs.Query.Desk
import ReviewQueue.Proofs.Query.Flight
import ReviewQueue.Proofs.Remote.Follow
import ReviewQueue.Proofs.Remote.Listing
import ReviewQueue.Proofs.Remote.Origin
import ReviewQueue.Proofs.Remote.Update
import ReviewQueue.Proofs.Review.Approval
import ReviewQueue.Proofs.Review.Gate
import ReviewQueue.Proofs.Review.Good
import ReviewQueue.Proofs.Review.Landed
import ReviewQueue.Proofs.Review.Problem
import ReviewQueue.Proofs.Review.Queue
import ReviewQueue.Proofs.Review.Request
import ReviewQueue.Proofs.Review.Round
import ReviewQueue.Proofs.Review.Saved
import ReviewQueue.Proofs.Review.Served
import ReviewQueue.Proofs.Review.Session
import ReviewQueue.Proofs.Review.Traffic
import ReviewQueue.Proofs.Review.Walk
import ReviewQueue.Proofs.Route.Endpoint
import ReviewQueue.Proofs.Route.RoundTrip
import ReviewQueue.Proofs.Server.Answer
import ReviewQueue.Proofs.Server.Update
import ReviewQueue.Proofs.Store.Batch
import ReviewQueue.Proofs.Store.Operations
import ReviewQueue.Proofs.Store.Reviewed
import ReviewQueue.Proofs.Store.Sound
import ReviewQueue.Proofs.Text.Blank
import ReviewQueue.Proofs.Text.Decimal
import ReviewQueue.Proofs.Text.Numeral
import ReviewQueue.Proofs.Timestamp
import ReviewQueue.Query.Cache
import ReviewQueue.Query.Desk
import ReviewQueue.Query.Flight
import ReviewQueue.Remote.Authority
import ReviewQueue.Remote.Basic
import ReviewQueue.Remote.Client
import ReviewQueue.Remote.Error
import ReviewQueue.Remote.Executor
import ReviewQueue.Remote.Prepared
import ReviewQueue.Remote.Url
import ReviewQueue.Review.Buckets
import ReviewQueue.Review.Coordinator
import ReviewQueue.Review.Form
import ReviewQueue.Review.FormCodec
import ReviewQueue.Review.Gate
import ReviewQueue.Review.Navigator
import ReviewQueue.Review.PartFlag
import ReviewQueue.Review.Preferences
import ReviewQueue.Review.Problem
import ReviewQueue.Review.Reviewer
import ReviewQueue.Review.Session
import ReviewQueue.Review.Siblings
import ReviewQueue.Route
import ReviewQueue.Server.Counters
import ReviewQueue.Server.Handler
import ReviewQueue.Server.Resource
import ReviewQueue.Server.Running
import ReviewQueue.Settings.Catalog
import ReviewQueue.Settings.OfFile
import ReviewQueue.Settings.OfJson
import ReviewQueue.Settings.Render
import ReviewQueue.Settings.Value
import ReviewQueue.Store.Basic
import ReviewQueue.Store.Row
import ReviewQueue.Store.Saved
import ReviewQueue.Store.Timed
import ReviewQueue.Text.Base64
import ReviewQueue.Text.Blank
import ReviewQueue.Text.Distance
import ReviewQueue.Text.Fold
import ReviewQueue.Text.Numeral
import ReviewQueue.Text.Printable
import ReviewQueue.Text.Quoted
import ReviewQueue.Text.Upper
import ReviewQueue.Text.Utf8
import ReviewQueue.Text.Width
import ReviewQueue.Timestamp
import ReviewQueue.Tools
import ReviewQueue.Tools.Codec
import ReviewQueue.Yaml.Basic
import ReviewQueue.Yaml.Block
import ReviewQueue.Yaml.Decode
import ReviewQueue.Yaml.Flow
import ReviewQueue.Yaml.Lines
import ReviewQueue.Yaml.Scalar
import ReviewQueue.Proofs.Store.Integrity
import ReviewQueue.Proofs.Route.BatchPath
import ReviewQueue.Proofs.Review.Flags
import ReviewQueue.Proofs.Route.Checked
import ReviewQueue.Proofs.Yaml.Decode
import ReviewQueue.Proofs.Import.File
import ReviewQueue.Proofs.Import.Created
import ReviewQueue.Proofs.Import.Brought
import ReviewQueue.Proofs.Import.Rehearsal
import ReviewQueue.Proofs.Store.Extends
import ReviewQueue.Proofs.Store.Clock
import ReviewQueue.Proofs.Review.Effects
import ReviewQueue.Proofs.Review.Called
import ReviewQueue.Proofs.Number.Binary64
import ReviewQueue.Proofs.Query.Shared
import ReviewQueue.Proofs.Remote.Writes
import ReviewQueue.Proofs.Review.Told
import ReviewQueue.Proofs.Store.Snapshot
import ReviewQueue.Proofs.Store.ReadBack
import ReviewQueue.Proofs.Timestamp.Instant
import ReviewQueue.Proofs.Store.Listed
import ReviewQueue.Proofs.Store.Commute
import ReviewQueue.Proofs.Review.Arrival
import ReviewQueue.Proofs.Grouping
import ReviewQueue.Proofs.Review.Options
import ReviewQueue.Proofs.Review.Neighbours
import ReviewQueue.Proofs.Review.Steps
import ReviewQueue.Proofs.Review.Recorded
import ReviewQueue.Proofs.Review.UpToDate
import ReviewQueue.Proofs.Review.Verdict
import ReviewQueue.Proofs.Review.Asked
import ReviewQueue.Proofs.Review.Fetched
import ReviewQueue.Proofs.Review.Shown
import ReviewQueue.Proofs.Review.AllOrNothing
import ReviewQueue.Proofs.Draft.Fence
import ReviewQueue.Proofs.Review.Attached
import ReviewQueue.Proofs.Review.Answered
import ReviewQueue.Proofs.Review.Opened
import ReviewQueue.Proofs.Review.Room
import ReviewQueue.Proofs.Review.Drafted
import ReviewQueue.Proofs.Server.Counted
import ReviewQueue.Proofs.PidFile
import ReviewQueue.Proofs.Number.Literal
import ReviewQueue.Proofs.Yaml.Quoted
import ReviewQueue.Proofs.Yaml.Lines
import ReviewQueue.Proofs.Yaml.Scalar
import ReviewQueue.Proofs.Yaml.Layout
import ReviewQueue.Proofs.Settings.Table
import ReviewQueue.Proofs.Settings.Layout
import ReviewQueue.Proofs.Settings.ReadBack
import ReviewQueue.Proofs.Console.Elapsed
