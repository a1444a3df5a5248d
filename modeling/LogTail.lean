import LogTail.Roster
import LogTail.Workspace
import LogTail.Pump.Timed
import LogTail.Yaml.Node
import LogTail.Settings.Search
import LogTail.Desk.Request
import LogTail.Proofs.Sound
import LogTail.Proofs.Act
import LogTail.Proofs.Moves
import LogTail.Proofs.Append
import LogTail.Proofs.Trace
import LogTail.Proofs.Live
import LogTail.Proofs.Fate
import LogTail.Proofs.Window
import LogTail.Proofs.Stops
import LogTail.Proofs.Protocol
import LogTail.Proofs.Leftover
import LogTail.Proofs.Written
import LogTail.Proofs.Supply
import LogTail.Proofs.Identity
import LogTail.Proofs.Lifetime
import LogTail.Proofs.Transports
import LogTail.Proofs.Foreign
import LogTail.Proofs.Onward
import LogTail.Proofs.Failed
import LogTail.Proofs.Runs
import LogTail.Proofs.Handling
import LogTail.Proofs.Cut
import LogTail.Proofs.Buffers
import LogTail.Proofs.Following
import LogTail.Proofs.Batches
import LogTail.Proofs.Watching
import LogTail.Proofs.Reasons
import LogTail.Proofs.Cleared
import LogTail.Proofs.Sharing
import LogTail.Proofs.Isolation
import LogTail.Proofs.Channels
import LogTail.Proofs.ByteOrder
import LogTail.Proofs.Registering
import LogTail.Proofs.Accepting
import LogTail.Proofs.Splicing
import LogTail.Proofs.Trimming
import LogTail.Proofs.Entries
import LogTail.Proofs.Accounts
import LogTail.Proofs.Overlay
import LogTail.Proofs.Targets
import LogTail.Proofs.Ageing
import LogTail.Proofs.Elapsed
import LogTail.Proofs.Waiting
import LogTail.Proofs.Layers
import LogTail.Proofs.Budgets
import LogTail.Proofs.Contents
import LogTail.Proofs.Midway
import LogTail.Proofs.Endings
