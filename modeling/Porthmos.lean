import Porthmos.Retrying
import Porthmos.ScanCancels
import Porthmos.ClearedParts
import Porthmos.ConnectAttempts
import Porthmos.VersionedRuns
import Porthmos.LazyWriterRuns
import Porthmos.EditRuns
import Porthmos.ConflictDesk
import Porthmos.SplitCommand
import Porthmos.CertificatePins
import Porthmos.Secrets
import Porthmos.S3Pages
import Porthmos.S3Discovery
import Porthmos.S3Resume
import Porthmos.S3Moves
import Porthmos.FtpReplies
import Porthmos.FtpLines
import Porthmos.RemoteSearch
import Porthmos.ConflictOffsets
import Porthmos.SyncAdmissible
import Porthmos.HistoryResults
import Porthmos.ConnectionRoundTrip
import Porthmos.SwitchedDrafts
import Porthmos.ConnectionRows
import Porthmos.ConnectionMerge
import Porthmos.LocationTasks
import Porthmos.ListingOrder
import Porthmos.WebDavAuth
import Porthmos.WebDavListing
import Porthmos.S3Bodies
import Porthmos.ListedDates
import Porthmos.S3CopyRanges
import Porthmos.FilterAnchors
import Porthmos.SshHosts
import Porthmos.WriteOffsets
import Porthmos.ScpWriter
import Porthmos.Multistatus
import Porthmos.TaskTable
import Porthmos.Prompts
import Porthmos.FtpStreams
