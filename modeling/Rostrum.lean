import Rostrum.Main
import Rostrum.Rehearsal.Calls
import Rostrum.Rehearsal.Peer
import Rostrum.Rehearsal.Service
import Rostrum.Proofs.Registry.Views
import Rostrum.Proofs.Registry.Changes
import Rostrum.Proofs.Registry.Lookup
import Rostrum.Proofs.Registry.Calls
import Rostrum.Proofs.Registry.Shape
import Rostrum.Proofs.Registry.Ownership
import Rostrum.Proofs.Registry.Stops
import Rostrum.Proofs.Broadcast.Balance
import Rostrum.Proofs.Broadcast.Journal
import Rostrum.Proofs.Broadcast.Release
import Rostrum.Proofs.Broadcast.Path
import Rostrum.Proofs.Broadcast.Relay
import Rostrum.Proofs.Broadcast.History
import Rostrum.Proofs.Broadcast.Conduct
import Rostrum.Proofs.Broadcast.MixTurns
import Rostrum.Proofs.Broadcast.MixLock
import Rostrum.Proofs.Broadcast.MixLedger
import Rostrum.Proofs.Broadcast.SharedMix
import Rostrum.Proofs.Broadcast.Teardowns
import Rostrum.Proofs.Broadcast.DeferredStop
import Rostrum.Proofs.Broadcast.Outcome
import Rostrum.Proofs.Broadcast.Progress
import Rostrum.Proofs.Broadcast.Shutdown
import Rostrum.Proofs.Broadcast.Undisturbed
import Rostrum.Proofs.Broadcast.Silence
import Rostrum.Proofs.Broadcast.Listening
import Rostrum.Proofs.Broadcast.Readiness
import Rostrum.Proofs.Broadcast.Messages
import Rostrum.Proofs.Broadcast.Roles
import Rostrum.Proofs.Broadcast.Delivery
import Rostrum.Proofs.Outbound.Queues
import Rostrum.Proofs.Outbound.Reading
import Rostrum.Proofs.Candidate
import Rostrum.Proofs.Message.Grammar
import Rostrum.Proofs.Rpc.Books
import Rostrum.Proofs.Rpc.Exchange
import Rostrum.Proofs.Rpc.Matching
import Rostrum.Proofs.Registry.Apart
import Rostrum.Proofs.Broadcast.Departure
import Rostrum.Proofs.Venue
import Rostrum.Proofs.Candidate.Written
import Rostrum.Proofs.Rpc.Passage
import Rostrum.Proofs.Json.Numerals
import Rostrum.Proofs.Json.ReadBack
import Rostrum.Proofs.Message.ReadBack
import Rostrum.Proofs.Registry.Isolation
import Rostrum.Proofs.Broadcast.Counters
import Rostrum.Proofs.Broadcast.LiveSessions
import Rostrum.Proofs.Broadcast.StaleMix
import Rostrum.Proofs.Hearing
import Rostrum.Proofs.Unreadable
import Rostrum.Proofs.Registry.Quiet
import Rostrum.Proofs.Broadcast.Renumbered
import Rostrum.Proofs.FurtherStops
import Rostrum.Proofs.Rpc.TimeLimit
import Rostrum.Proofs.Rpc.Completion
import Rostrum.Proofs.Rpc.EngineSession
import Rostrum.Proofs.Rpc.Subscriptions
import Rostrum.Proofs.Registry.Refusals
import Rostrum.Proofs.Broadcast.Admission
import Rostrum.Proofs.Broadcast.Course
import Rostrum.Proofs.Message.Agreement
import Rostrum.Proofs.Places
import Rostrum.Proofs.Engine.Bookkeeping
import Rostrum.Proofs.Toml.Distinct
import Rostrum.Proofs.Configuration
