import ChainFollower.Game.Session
import ChainFollower.Rehearsal.Audience
import ChainFollower.Rehearsal.Controller
import ChainFollower.Rehearsal.Script
import ChainFollower.Rehearsal.Stage
import ChainFollower.Simulation
import ChainFollower.Proofs.Ledger
import ChainFollower.Proofs.Replay
import ChainFollower.Proofs.Journal
import ChainFollower.Proofs.Json.Text
import ChainFollower.Proofs.Json.Codec
import ChainFollower.Proofs.Game.Registry
import ChainFollower.Proofs.Game.Tally
import ChainFollower.Proofs.Chain.Simulated
import ChainFollower.Proofs.Chain.Payload
import ChainFollower.Proofs.Sync.Frame
import ChainFollower.Proofs.Sync.Reply
import ChainFollower.Proofs.Sync.Life
import ChainFollower.Proofs.Sync.Soundness
import ChainFollower.Proofs.Sync.Convergence
import ChainFollower.Proofs.Sync.MovingChain
import ChainFollower.Proofs.Sync.Delivery
import ChainFollower.Proofs.Sync.ShortChain
import ChainFollower.Proofs.Sync.Publishing
import ChainFollower.Proofs.Sync.History
import ChainFollower.Proofs.Sync.Recovery
import ChainFollower.Proofs.Sync.Trail
import ChainFollower.Proofs.Sync.Retention
import ChainFollower.Proofs.Sync.Direct
import ChainFollower.Proofs.Text.Names
import ChainFollower.Proofs.Text.Digits
import ChainFollower.Proofs.Store.Record
import ChainFollower.Proofs.Store.Reading
import ChainFollower.Proofs.Store.Names
import ChainFollower.Proofs.Store.FileTree
import ChainFollower.Proofs.Store.Memory
import ChainFollower.Proofs.Store.File
import ChainFollower.Proofs.Store.Refinement
import ChainFollower.Proofs.Store.Agreement
import ChainFollower.Proofs.Notify.Topic
import ChainFollower.Proofs.Notify.Bus
import ChainFollower.Proofs.Notify.Worker
import ChainFollower.Proofs.Notify.News
import ChainFollower.Proofs.Notify.Logged
import ChainFollower.Proofs.Notify.Returning
import ChainFollower.Proofs.Notify.Dispatch
import ChainFollower.Proofs.Notify.Post
import ChainFollower.Proofs.Notify.Losses
import ChainFollower.Proofs.Simulation.Games
import ChainFollower.Proofs.Simulation.Follow
import ChainFollower.Proofs.Simulation.Walk
import ChainFollower.Proofs.Simulation.Plan
import ChainFollower.Proofs.Simulation.Works
import ChainFollower.Proofs.Simulation.Scene
import ChainFollower.Proofs.Simulation.Turns
import ChainFollower.Proofs.Simulation.Opening
import ChainFollower.Proofs.Simulation.Settling
import ChainFollower.Proofs.Simulation.Ending
import ChainFollower.Proofs.Game.Transparency
import ChainFollower.Proofs.Store.Interruption
import ChainFollower.Proofs.Homes
import ChainFollower.Proofs.Sync.Stages
import ChainFollower.Proofs.Sync.Conduct
import ChainFollower.Proofs.Sync.Patience
import ChainFollower.Proofs.Sync.Origin
import ChainFollower.Proofs.Sync.Course
import ChainFollower.Proofs.Sync.Bounds
import ChainFollower.Proofs.Game.NameTable
import ChainFollower.Proofs.Game.Counts
import ChainFollower.Proofs.Chain.Lawful
import ChainFollower.Proofs.Notify.Transport
