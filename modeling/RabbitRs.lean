import RabbitRs.Buffer.Conservation
import RabbitRs.Buffer.Model
import RabbitRs.Buffer.Teardown
import RabbitRs.Buffer.Timers
import RabbitRs.Client.Closing
import RabbitRs.Client.Leftovers
import RabbitRs.Client.Pool
import RabbitRs.Client.Turns
import RabbitRs.Config
import RabbitRs.Config.Fingerprint
import RabbitRs.Config.Identity
import RabbitRs.Config.Order
import RabbitRs.Config.Rendering
import RabbitRs.Config.Separation
import RabbitRs.Consumer.Acknowledgements
import RabbitRs.Consumer.Actor
import RabbitRs.Consumer.Attempts
import RabbitRs.Consumer.Budget
import RabbitRs.Consumer.Channel
import RabbitRs.Consumer.Choices
import RabbitRs.Consumer.Coalescing
import RabbitRs.Consumer.Custody
import RabbitRs.Consumer.DeadLetter
import RabbitRs.Consumer.Desk
import RabbitRs.Consumer.Discipline
import RabbitRs.Consumer.Dispatch
import RabbitRs.Consumer.Fairness
import RabbitRs.Consumer.Frames
import RabbitRs.Consumer.Lane
import RabbitRs.Consumer.Ledger
import RabbitRs.Consumer.Order
import RabbitRs.Consumer.Outstanding
import RabbitRs.Consumer.Parking
import RabbitRs.Consumer.Prefix
import RabbitRs.Consumer.Refinement
import RabbitRs.Consumer.Republication
import RabbitRs.Consumer.Scheduler
import RabbitRs.Consumer.Settlements
import RabbitRs.Consumer.Shelf
import RabbitRs.Consumer.Stocking
import RabbitRs.Consumer.Subscription
import RabbitRs.Consumer.Tokens
import RabbitRs.Laravel.Queue
import RabbitRs.Laravel.Scaling
import RabbitRs.Laravel.Surfacing
import RabbitRs.Lib.Codec
import RabbitRs.Lib.History
import RabbitRs.Lib.Keyed
import RabbitRs.Lib.Machine
import RabbitRs.Lib.Ordered
import RabbitRs.Lib.Registry
import RabbitRs.Lib.RoundRobin
import RabbitRs.Lib.Slots
import RabbitRs.Lib.Tally
import RabbitRs.Publisher.Actor
import RabbitRs.Publisher.ByteBudget
import RabbitRs.Publisher.Conservation
import RabbitRs.Publisher.Correlation
import RabbitRs.Publisher.DelayRoute
import RabbitRs.Publisher.DelayedWrites
import RabbitRs.Publisher.Frames
import RabbitRs.Publisher.Lifecycle
import RabbitRs.Publisher.Outcomes
import RabbitRs.Publisher.Phases
import RabbitRs.Publisher.Pump
import RabbitRs.Publisher.Staleness
import RabbitRs.Publisher.Wire
import RabbitRs.Recovery.Adoption
import RabbitRs.Recovery.Attempt
import RabbitRs.Recovery.Backoff
import RabbitRs.Recovery.Connection
import RabbitRs.Recovery.Coordinator
import RabbitRs.Recovery.Establishment
import RabbitRs.Recovery.Exclusion
import RabbitRs.Recovery.KeepAlive
import RabbitRs.Recovery.Labels
import RabbitRs.Recovery.Quiescence
import RabbitRs.Recovery.Reports
import RabbitRs.Recovery.Tending
import RabbitRs.Runtime.Claims
import RabbitRs.Runtime.Registry
import RabbitRs.Topology.Conflict
import RabbitRs.Topology.Delay
import RabbitRs.Topology.DelayNames
import RabbitRs.Topology.Hosting
import RabbitRs.Topology.Plan
import RabbitRs.Topology.PlanShape
import RabbitRs.Topology.Reconciler
import RabbitRs.Topology.Release
import RabbitRs.Transport
import RabbitRs.Transport.Headers
