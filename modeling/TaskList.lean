import TaskList.Main
import TaskList.Proofs.Line.Fields
import TaskList.Proofs.Line.Tokens
import TaskList.Text.UnknownWord
import TaskList.Proofs.Line.Recorded
import TaskList.Proofs.Line.Partition
import TaskList.Proofs.Line.Leftmost
import TaskList.Proofs.Edit.Substitution
import TaskList.Proofs.Outline.Links
import TaskList.Proofs.Outline.Walk
import TaskList.Proofs.Outline.Nearest
import TaskList.Proofs.Outline.Block
import TaskList.Proofs.Outline.Ancestry
import TaskList.Proofs.Outline.Renumbered
import TaskList.Proofs.Document.Deletion
import TaskList.Proofs.Due.Joined
import TaskList.Proofs.Document.Overlong
import TaskList.Proofs.Document.Visits
import TaskList.Proofs.Document.Counted
import TaskList.Proofs.Document.Renewed
import TaskList.Proofs.Document.SameDay
import TaskList.Proofs.Document.Kept
import TaskList.Proofs.Line.Extended
import TaskList.Proofs.Action.Conservative
import TaskList.Proofs.Line.Closed
import TaskList.Proofs.Line.Whole
import TaskList.Proofs.Line.Trimmed
import TaskList.Proofs.Action.Removal
import TaskList.Proofs.Action.Retitled
import TaskList.Proofs.Action.Completed
import TaskList.Proofs.Line.Carriers
import TaskList.Proofs.Line.Thinned
import TaskList.Proofs.Action.Reopened
import TaskList.Proofs.Document.Reopened
import TaskList.Proofs.Due.Upcoming
import TaskList.Proofs.Due.Latest
import TaskList.Proofs.Command.Rewritten
import TaskList.Proofs.Settings.Saved
import TaskList.Proofs.Outline.Leveled
import TaskList.Proofs.Outline.Circles
import TaskList.Proofs.Settings.Loaded
import TaskList.Proofs.Settings.InUse
import TaskList.Proofs.Outline.Grouped
import TaskList.Proofs.View.Groups
import TaskList.Proofs.View.Shown
import TaskList.Proofs.Line.Prioritized
import TaskList.Proofs.Document.Prioritized
import TaskList.Proofs.Line.Redated
import TaskList.Proofs.Action.Redated
import TaskList.Proofs.View.Folded
import TaskList.Proofs.View.Urgent
import TaskList.Proofs.Calendar.Legible
import TaskList.Proofs.Calendar.Distance
import TaskList.Proofs.Due.Later
import TaskList.Proofs.Line.Reindented
import TaskList.Proofs.Document.Reindented
import TaskList.Proofs.Document.Sorted
