import Lazyd.Library.UnitPartition
import Lazyd.Library.TaskSystem
import Lazyd.Library.Linearization
import Lazyd.Library.Log
import Lazyd.Library.FairSchedule
import Lazyd.Library.Simulation
import Lazyd.Library.SparseFile
import Lazyd.Library.Reservations
import Lazyd.Library.Handles
import Lazyd.Library.JsonBytes
import Lazyd.Library.Decimal
import Lazyd.Library.LittleEndian
import Lazyd.Base
import Lazyd.Remote.Basic
import Lazyd.Remote.ReadRange
import Lazyd.Remote.Challenge
import Lazyd.Remote.ImageRef
import Lazyd.Remote.Auth
import Lazyd.Remote.Tokens
import Lazyd.Remote.AuthParams
import Lazyd.Library.Utf8
import Lazyd.Control.Http
import Lazyd.Control.Framing
import Lazyd.Control.Requests
import Lazyd.Control.Routes
import Lazyd.RangeMap.Slots
import Lazyd.RangeMap.Header
import Lazyd.RangeMap.Open
import Lazyd.RangeMap.Opened
import Lazyd.RangeMap.MapSound
import Lazyd.RangeMap.Persist
import Lazyd.RangeMap.ReadySet
import Lazyd.Instance.Config
import Lazyd.Instance.FetchUnits
import Lazyd.Instance.EnsureRange
import Lazyd.Instance.WriteAll
import Lazyd.Instance.Shape
import Lazyd.Instance.Soundness
import Lazyd.Instance.Frame
import Lazyd.Instance.Settled
import Lazyd.Instance.Replies
import Lazyd.Instance.Fetch
import Lazyd.Instance.Inflight
import Lazyd.Instance.Downloads
import Lazyd.Instance.Answered
import Lazyd.Instance.Starvation
import Lazyd.Instance.Ready
import Lazyd.Instance.Recovery
import Lazyd.Instance.Reconcile
import Lazyd.Instance.RecoveryAnswers
import Lazyd.Instance.Recorded
import Lazyd.Instance.Sessions
import Lazyd.Fanotify.Events
import Lazyd.Fanotify.EventLoop
import Lazyd.Fanotify.Access
import Lazyd.Fanotify.Decoding
import Lazyd.Fanotify.Waiting
import Lazyd.Registry.Open
import Lazyd.Fanotify.Backend
import Lazyd.Registry.Register
import Lazyd.Registry.OverflowChecks
import Lazyd.Registry.Marks
import Lazyd.Registry.OnError
import Lazyd.Registry.TargetSound
import Lazyd.Registry.Concurrent
import Lazyd.Registry.CompleteCalls
import Lazyd.Registry.Uses
import Lazyd.Registry.Linearizable
import Lazyd.Registry.Allowed
import Lazyd.Registry.MarksRace
import Lazyd.Registry.Handover
import Lazyd.Prepare.Layers
import Lazyd.Prepare.Paths
import Lazyd.Prepare.Steps
import Lazyd.Prepare.Created
import Lazyd.Prepare.Again
import Lazyd.Prepare.Cached
import Lazyd.Prepare.Reuse
import Lazyd.Prepare.OnError
import Lazyd.Prepare.Keys
import Lazyd.Prepare.Confined
import Lazyd.Prepare.WarmStart
import Lazyd.Prepare.Runs
import Lazyd.Data.Packets
import Lazyd.Data.Session
import Lazyd.Data.Descriptors
import Lazyd.Data.Answers
import Lazyd.Control.Responses
import Lazyd.Control.ControlPlane
import Lazyd.Control.Served
import Lazyd.Service.Exchanges
import Lazyd.Service.Acknowledged
import Lazyd.Service.RemoteReads
