import Switchboard.Cluster.Config
import Switchboard.Codec
import Switchboard.Dispatch.Config
import Switchboard.Json.Reader
import Switchboard.Session.Run
import Switchboard.Proofs.Cluster.Announcement
import Switchboard.Proofs.Cluster.Operation
import Switchboard.Proofs.Cluster.Consistency
import Switchboard.Proofs.Cluster.Schedule
import Switchboard.Proofs.Cluster.Placement
import Switchboard.Proofs.Cluster.Hooks
import Switchboard.Proofs.Cluster.Lifecycle
import Switchboard.Proofs.Cluster.Progress
import Switchboard.Proofs.Dispatch.Run
import Switchboard.Proofs.Dispatch.SingleCall
import Switchboard.Proofs.Dispatch.Scenario
import Switchboard.Proofs.Dispatch.Script
import Switchboard.Proofs.Dispatch.Timeline
import Switchboard.Proofs.Dispatch.ScriptedCall
import Switchboard.Proofs.Dispatch.Retries
import Switchboard.Proofs.Dispatch.Closing
import Switchboard.Proofs.Interface.Coverage
import Switchboard.Proofs.Cluster.Holders
import Switchboard.Proofs.Dispatch.Provision
import Switchboard.Proofs.Json.Equality
import Switchboard.Proofs.Json.Ordered
import Switchboard.Proofs.KeyDigest
import Switchboard.Proofs.Json.Canonical
import Switchboard.Proofs.Json.Meaning
import Switchboard.Proofs.KeyPreimage
import Switchboard.Proofs.Dispatch.Client
import Switchboard.Proofs.Dispatch.Stitching
import Switchboard.Proofs.Dispatch.Turns
import Switchboard.Proofs.Cluster.Procedure
import Switchboard.Proofs.Cluster.Finality
import Switchboard.Proofs.Codec.Forms
import Switchboard.Proofs.Codec.Keys
import Switchboard.Proofs.Cluster.Handover
import Switchboard.Proofs.Cluster.Load
import Switchboard.Proofs.Cluster.Rebalancing
import Switchboard.Proofs.Cluster.Departure
import Switchboard.Proofs.Cluster.Assignment
import Switchboard.Proofs.Dispatch.Interruption
import Switchboard.Proofs.Dispatch.Lockstep
import Switchboard.Proofs.Dispatch.Abandonment
import Switchboard.Proofs.Dispatch.Resolution
import Switchboard.Proofs.Interface.Naming
import Switchboard.Proofs.Interface.KeySource
import Switchboard.Proofs.Dispatch.Submission
import Switchboard.Proofs.Dispatch.RoundRobin
import Switchboard.Proofs.Membership
import Switchboard.Proofs.Dispatch.Identity
import Switchboard.Proofs.Interface.Probing
import Switchboard.Proofs.Session.Course
import Switchboard.Proofs.Session.Identity
import Switchboard.Proofs.Session.Requests
import Switchboard.Proofs.Interface.BreadthFirst
import Switchboard.Proofs.Interface.ServiceName
import Switchboard.Proofs.Fingerprint
