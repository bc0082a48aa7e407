import ProtoActor.Transition.Run
import ProtoActor.Actor.Pid
import ProtoActor.Actor.ActorContext
import ProtoActor.Actor.Lifecycle
import ProtoActor.Actor.Future
import ProtoActor.Actor.FutureCompletion
import ProtoActor.Cluster.GrainCall
import ProtoActor.Cluster.Member
import ProtoActor.Cluster.MemberList
import ProtoActor.Collections.Intern
import ProtoActor.Remote.Batch
import ProtoActor.Remote.BatchRoundTrip
import ProtoActor.Cluster.GossipState
import ProtoActor.Cluster.Consensus
import ProtoActor.Cluster.Informer
import ProtoActor.Cluster.GossipNetwork
import ProtoActor.Cluster.BatchingProducer
import ProtoActor.Actor.Mailbox
import ProtoActor.Hash.Fnv
import ProtoActor.Order.FirstMax
import ProtoActor.Cluster.Rendezvous
import ProtoActor.Cluster.GossipIntegrity
import ProtoActor.Collections.Goring
import ProtoActor.Remote.EndpointWriterMailbox
import ProtoActor.Remote.EndpointWatch
import ProtoActor.Persistence.Plugin
import ProtoActor.Cluster.PubSubBatch
import ProtoActor.Cluster.GossipMerge
import ProtoActor.Cluster.ConsensusIndex
import ProtoActor.Cluster.PidCache
import ProtoActor.Actor.PidSetSpec
import ProtoActor.Actor.FutureWait
import ProtoActor.Cluster.Topology
import ProtoActor.Collections.Fifo
import ProtoActor.Collections.Mpsc
import ProtoActor.Actor.PriorityQueue
import ProtoActor.Collections.SwapRemove
import ProtoActor.Eventstream.EventStream
import ProtoActor.Cluster.PubSubTopic
import ProtoActor.Actor.MailboxOrder
import ProtoActor.Actor.ProcessRegistry
import ProtoActor.Cluster.RoundRobin
import ProtoActor.Cluster.ZkProvider
import ProtoActor.Cluster.Disthash
import ProtoActor.Cluster.PubSubWrappers
import ProtoActor.Actor.Supervision
import ProtoActor.Collections.Sharded
import ProtoActor.Actor.Registry
import ProtoActor.Cluster.PubSubDelivery
import ProtoActor.Actor.Throttler
import ProtoActor.Scheduler.Timer
import ProtoActor.Router.Process
import ProtoActor.Router.RouterActor
import ProtoActor.Actor.Spawn
import ProtoActor.Actor.DeadLetter
import ProtoActor.Router.State
