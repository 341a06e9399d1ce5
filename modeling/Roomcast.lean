import Roomcast.Config
import Roomcast.Peer.Frame
import Roomcast.Peer.Error
import Roomcast.Room
import Roomcast.Store
import Roomcast.Registry.Basic
import Roomcast.Registry.Subscriber
import Roomcast.Registry.Puller
import Roomcast.Registry.Closer
import Roomcast.Registry.Collector
import Roomcast.Registry.Reader
import Roomcast.Registry.Step
import Roomcast.Schedule.Timers
import Roomcast.Schedule
import Roomcast.Registry.Clocked
import Roomcast.Hub
import Roomcast.Peer.Link
import Roomcast.Peer.Media
import Roomcast.Peer.Heartbeat
import Roomcast.Peer.Request
import Roomcast.Peer.Session
import Roomcast.Service
import Roomcast.Service.Error
import Roomcast.Text.Utf8
import Roomcast.Text.Split
import Roomcast.Text.Escaped
import Roomcast.WebSocket.Frame
import Roomcast.WebSocket.Reader
import Roomcast.Http.Target
import Roomcast.Http.Request
import Roomcast.Http.Head
import Roomcast.Http.Written
import Roomcast.Http.Server
import Roomcast.WebSocket.Written
import Roomcast.Proofs.Chain
import Roomcast.Proofs.View
import Roomcast.Proofs.Feed
import Roomcast.Proofs.Backlog
import Roomcast.Proofs.Moves
import Roomcast.Proofs.Ownership
import Roomcast.Proofs.Delivery
import Roomcast.Proofs.Evolution
import Roomcast.Proofs.Closing
import Roomcast.Proofs.Shutdown
import Roomcast.Proofs.SingleRoom
import Roomcast.Proofs.Overlap
import Roomcast.Proofs.Endings
import Roomcast.Proofs.Locks
import Roomcast.Proofs.Collection
import Roomcast.Proofs.FeedClosing
import Roomcast.Proofs.Finality
import Roomcast.Proofs.Occasions
import Roomcast.Proofs.Parting
import Roomcast.Proofs.Requests
import Roomcast.Proofs.Serving
import Roomcast.Proofs.Digits
import Roomcast.Proofs.Lexing
import Roomcast.Proofs.Parsing
import Roomcast.Proofs.Stamps
import Roomcast.Proofs.Values
import Roomcast.Proofs.Records
import Roomcast.Proofs.Messages
import Roomcast.Proofs.Nesting
import Roomcast.Proofs.RoundTrip
import Roomcast.Proofs.Contents
import Roomcast.Proofs.Readers
import Roomcast.Proofs.Sources
import Roomcast.Proofs.Calm
import Roomcast.Proofs.Arriving
import Roomcast.Proofs.Progress
import Roomcast.Proofs.Unwedged
import Roomcast.Proofs.Deeds
import Roomcast.Proofs.Stays
import Roomcast.Proofs.Standing
import Roomcast.Proofs.Sending
import Roomcast.Proofs.Leaving
import Roomcast.Proofs.Fidelity
import Roomcast.Proofs.Holding
import Roomcast.Proofs.Refusals
import Roomcast.Proofs.Visits
import Roomcast.Proofs.Lodging
import Roomcast.Proofs.Hosting
import Roomcast.Proofs.Attending
import Roomcast.Proofs.Ledger
import Roomcast.Proofs.Departing
import Roomcast.Proofs.Accounts
import Roomcast.Proofs.Counting
import Roomcast.Proofs.Retention
import Roomcast.Proofs.Waking
import Roomcast.Proofs.Layouts
import Roomcast.Proofs.Replies
import Roomcast.Proofs.Neighbours
import Roomcast.Proofs.Likeness
import Roomcast.Proofs.Unaided
import Roomcast.Proofs.Asking
import Roomcast.Proofs.Unhindered
import Roomcast.Proofs.Separation
import Roomcast.Proofs.Settings
import Roomcast.Proofs.Spelling
import Roomcast.Proofs.Edits
import Roomcast.Proofs.Tolerance
import Roomcast.Proofs.Admission
import Roomcast.Proofs.Pacing
import Roomcast.Proofs.Pulse
import Roomcast.Proofs.Encoding
import Roomcast.Proofs.Framing
import Roomcast.Proofs.Assembly
import Roomcast.Proofs.Heads
