import Rogichat.Lib.Trace
import Rogichat.Lib.Footprint
import Rogichat.Lib.Fence
import Rogichat.Queue.Model
import Rogichat.Queue.System
import Rogichat.Queue.Leases
import Rogichat.Chat.Schema
import Rogichat.Chat.Access
import Rogichat.Chat.Visibility
import Rogichat.Chat.Rooms
import Rogichat.Chat.Messages
import Rogichat.Chat.Publications
import Rogichat.Chat.Deletion
import Rogichat.Chat.Reactions
import Rogichat.Chat.System
import Rogichat.Chat.Commands
import Rogichat.Chat.Purging
import Rogichat.Chat.Journal
import Rogichat.Chat.Membership
import Rogichat.Chat.Periods
import Rogichat.Chat.Streams
import Rogichat.Chat.Revocation
import Rogichat.Chat.Copies
import Rogichat.Chat.Receipts
import Rogichat.Ledger.Intent
import Rogichat.Ledger.Store
import Rogichat.Replay.Model
import Rogichat.Replay.Journal
import Rogichat.Outbox.Model
import Rogichat.Outbox.Records
import Rogichat.Outbox.Permissions
import Rogichat.Outbox.Fenced
import Rogichat.Replay.Fenced
import Rogichat.Media.Model
import Rogichat.Media.Cleanup
import Rogichat.Lib.Canonical
import Rogichat.Restore.Proof
import Rogichat.Restore.Model
import Rogichat.Restore.Observation
import Rogichat.Restore.Gate
import Rogichat.Restore.Release
import Rogichat.Ios.Conversation
import Rogichat.Ios.Timeline
import Rogichat.Ios.Rooms
import Rogichat.Ios.Directory
import Rogichat.Android.Conversation
import Rogichat.Android.Rooms
import Rogichat.Android.Directory
import Rogichat.Android.Timeline
import Rogichat.Native.Directory
import Rogichat.Live.Model
import Rogichat.Lib.Register
import Rogichat.Live.Overlay
import Rogichat.Live.Revisions
import Rogichat.Live.Convergence
import Rogichat.Chat.Ranks
import Rogichat.Chat.Audience
import Rogichat.Lib.Bytes
import Rogichat.Media.Policy
import Rogichat.Media.Container
import Rogichat.Media.Frames
import Rogichat.Lib.Keyed
import Rogichat.Web.Messages
import Rogichat.Web.Timeline
import Rogichat.Web.Fold
import Rogichat.Outbox.Capacity
import Rogichat.Lib.Base64
import Rogichat.Sync.Cursor
import Rogichat.Sync.Codec
import Rogichat.Chat.ReadState
import Rogichat.Chat.ReadMarks
import Rogichat.Lib.Versioned
import Rogichat.Notifications.Model
import Rogichat.Notifications.Generations
import Rogichat.Queue.Attempts
import Rogichat.Queue.Worker
import Rogichat.Identity.Apple
import Rogichat.Lib.Watermark
import Rogichat.Identity.Status
import Rogichat.SongLive.Model
import Rogichat.SongLive.Changes
import Rogichat.SongLive.System
import Rogichat.SongLive.Order
import Rogichat.SongLive.Playing
import Rogichat.SongLive.Overlay
import Rogichat.Pricing.Batch
import Rogichat.Anniversary.Model
import Rogichat.Anniversary.Range
import Rogichat.Anniversary.Next
import Rogichat.Recurring.Model
import Rogichat.Recurring.Refresh
import Rogichat.Recurring.System
import Rogichat.Recurring.Edits
import Rogichat.MessageActions.Replays
import Rogichat.RestoreMedia.Service
import Rogichat.Chat.ReadModel
import Rogichat.Chat.Senders
