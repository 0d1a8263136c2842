import RemoteIndex.Main
import RemoteIndex.Proofs.References
import RemoteIndex.Proofs.Lookup
import RemoteIndex.Proofs.Trail
import RemoteIndex.Proofs.Reach
import RemoteIndex.Proofs.Confinement
import RemoteIndex.Proofs.Offsets
import RemoteIndex.Proofs.Layout
import RemoteIndex.Proofs.Spans
import RemoteIndex.Proofs.Course
import RemoteIndex.Proofs.Verdict
import RemoteIndex.Proofs.Components
import RemoteIndex.Proofs.Pruning
import RemoteIndex.Proofs.Aliases
import RemoteIndex.Proofs.Hidden
import RemoteIndex.Proofs.Bypass
import RemoteIndex.Proofs.Deletion
import RemoteIndex.Proofs.LeftOut
import RemoteIndex.Proofs.Elsewhere
import RemoteIndex.Proofs.Enclosure
import RemoteIndex.Proofs.Pieces
import RemoteIndex.Proofs.Inert
import RemoteIndex.Proofs.Items
import RemoteIndex.Proofs.Module
import RemoteIndex.Proofs.ByteOrder
import RemoteIndex.Proofs.Records
import RemoteIndex.Proofs.Accounts
import RemoteIndex.Proofs.Printed
import RemoteIndex.Proofs.RoundTrip
import RemoteIndex.Proofs.Shown
import RemoteIndex.Proofs.Arguments
import RemoteIndex.Proofs.Commands
import RemoteIndex.Proofs.Precedence
import RemoteIndex.Proofs.Directories
import RemoteIndex.Proofs.Lossy
import RemoteIndex.Proofs.Cleaning
import RemoteIndex.Proofs.Anchoring
import RemoteIndex.Proofs.Positions
import RemoteIndex.Proofs.Separation
import RemoteIndex.Proofs.Succession
import RemoteIndex.Proofs.Descent
import RemoteIndex.Proofs.Loading
import RemoteIndex.Proofs.Families
import RemoteIndex.Proofs.Containment
import RemoteIndex.Proofs.Lines
import RemoteIndex.Proofs.Columns
import RemoteIndex.Proofs.Compact
import RemoteIndex.Proofs.Relative
import RemoteIndex.Proofs.Deadlines
import RemoteIndex.Proofs.Unlinked
import RemoteIndex.Proofs.Unset
import RemoteIndex.Proofs.WithoutFile
import RemoteIndex.Proofs.Rejected
