import Decommission.Deletion
import Decommission.Helm
import Decommission.Session
import Decommission.Settings
import Decommission.Tally
import Decommission.Cluster.Codec
import Decommission.Cluster.Empty
import Decommission.Cluster.Faulty
import Decommission.Cluster.Store
import Decommission.Cluster.Watched
import Decommission.Json.Reader
import Decommission.Json.Writer
import Decommission.Proofs.Events
import Decommission.Proofs.Play
import Decommission.Proofs.Supervision.Lifecycle
import Decommission.Proofs.Supervision.Watch
import Decommission.Proofs.Teardown.Step
import Decommission.Proofs.Supervision.Conducted
import Decommission.Proofs.Deletion.Chronicle
import Decommission.Proofs.Deletion.StageOrder
import Decommission.Proofs.Teardown.Ledger
import Decommission.Proofs.Teardown.Account
import Decommission.Proofs.Teardown.ClosedAccount
import Decommission.Proofs.Teardown.Crew
import Decommission.Proofs.Teardown.Accounting
import Decommission.Proofs.Pool.Books
import Decommission.Proofs.Course.Effects
import Decommission.Proofs.Course.Free
import Decommission.Proofs.Teardown.Errands
import Decommission.Proofs.Deletion.Conduct
import Decommission.Proofs.Course.Attending
import Decommission.Proofs.Supervision.Removal
import Decommission.Proofs.Deletion.Removal
import Decommission.Proofs.Pool.Schedule
import Decommission.Proofs.Supervision.Meaning
import Decommission.Proofs.Pool.Closing
import Decommission.Proofs.Supervision.Timing
import Decommission.Proofs.Deletion.Timed
import Decommission.Proofs.Deletion.Deadlines
import Decommission.Proofs.Deletion.Punctual
import Decommission.Proofs.Inevitable
import Decommission.Proofs.Teardown.Ending
import Decommission.Proofs.Teardown.Absence
import Decommission.Proofs.Teardown.Chores
import Decommission.Proofs.Teardown.Alone
import Decommission.Proofs.Teardown.Foreseen
import Decommission.Proofs.Cluster.Built
import Decommission.Proofs.Cluster.Parts
import Decommission.Proofs.Teardown.Independence
import Decommission.Proofs.Cluster.Quiet
import Decommission.Proofs.Teardown.Effect
import Decommission.Proofs.Course.Unread
import Decommission.Proofs.Supervision.Leftover
import Decommission.Proofs.Settings.Spans
import Decommission.Proofs.Settings.Selection
import Decommission.Proofs.Course.Turns
import Decommission.Proofs.Course.Clocked
import Decommission.Proofs.Rounds
import Decommission.Proofs.Supervision.Timed
import Decommission.Proofs.Supervision.Forewarning
import Decommission.Proofs.Supervision.Recital
import Decommission.Proofs.Supervision.Formula
import Decommission.Proofs.Supervision.ClosedForm
import Decommission.Proofs.Watching.Unwatched
import Decommission.Proofs.Watching.Retelling
import Decommission.Proofs.Watching.Relay
import Decommission.Proofs.Watching.Nameless
import Decommission.Proofs.Watching.Unmoved
import Decommission.Proofs.Retry.Words
import Decommission.Proofs.Retry.Backoff
import Decommission.Proofs.Retry.Attempts
import Decommission.Proofs.Teardown.Calls
import Decommission.Proofs.Teardown.Timed
import Decommission.Proofs.Teardown.Stopping
import Decommission.Proofs.Teardown.Draining
import Decommission.Proofs.Budget.Rebalancing
import Decommission.Proofs.Supervision.Diagnostics
import Decommission.Proofs.Engine.Room
import Decommission.Proofs.Engine.CaughtUp
import Decommission.Proofs.Engine.Pace
import Decommission.Proofs.Pool.Greedy
import Decommission.Proofs.Pool.Choice
import Decommission.Proofs.Pool.Paced
import Decommission.Proofs.Pool.Conserving
import Decommission.Proofs.Pool.Drained
import Decommission.Proofs.Cluster.Consistency
