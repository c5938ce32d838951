import NeuroForge.Lib.Transition
import NeuroForge.Lib.StackReplay
import NeuroForge.Lib.Rounding
import NeuroForge.Lib.Dict
import NeuroForge.Lib.Sample
import NeuroForge.Genomes.Schema
import NeuroForge.Domains.Base
import NeuroForge.Datasets.Holdout
import NeuroForge.Evaluation.Aggregate
import NeuroForge.Evaluation.Statistics
import NeuroForge.Promotion.Safety
import NeuroForge.Promotion.Gates
import NeuroForge.Promotion.Holdout
import NeuroForge.Lib.Random
import NeuroForge.Optimization.SearchSpace
import NeuroForge.Lib.Fallible
import NeuroForge.Optimization.Strategy
import NeuroForge.Optimization.Bayesian
import NeuroForge.Optimization.Registry
import NeuroForge.Optimization.Replay
import NeuroForge.Evaluation.Objectives
import NeuroForge.Experiments.Checkpoint
import NeuroForge.Experiments.Engine
import NeuroForge.Experiments.Noninterference
import NeuroForge.Experiments.CrashResume
import NeuroForge.Db.Models
import NeuroForge.Db.Repository
import NeuroForge.Promotion.Lifecycle
import NeuroForge.Promotion.StatusColumn
import NeuroForge.Promotion.Review
import NeuroForge.Experiments.Runner
import NeuroForge.Service.Requests
import NeuroForge.Promotion.Agreement
import NeuroForge.Service.WellFormed
import NeuroForge.Service.Effects
import NeuroForge.Service.StatusHistory
import NeuroForge.Service.Rollback
import NeuroForge.Service.HoldoutReuse
import NeuroForge.Lib.Interleaving
import NeuroForge.Service.Concurrent
import NeuroForge.Service.Serial
import NeuroForge.Service.Coherent
import NeuroForge.Service.WriteOnce
import NeuroForge.Service.Validated
import NeuroForge.Service.StatusRace
import NeuroForge.Lib.LineLog
import NeuroForge.Experiments.Events
import NeuroForge.Lib.NumberedText
import NeuroForge.Datasets.Evolution
import NeuroForge.Datasets.Lineage
import NeuroForge.Lib.Snapshot
import NeuroForge.Service.DatasetRace
import NeuroForge.Db.Numbers
import NeuroForge.Service.CreationRace
import NeuroForge.Lib.AdvisoryLock
import NeuroForge.Service.RunControl
import NeuroForge.Service.RunLock
import NeuroForge.Service.CancelFlag
import NeuroForge.Service.StaleRuns
import NeuroForge.Experiments.Life
import NeuroForge.Service.Operations
import NeuroForge.Lib.Extents
import NeuroForge.Service.Numbering
import NeuroForge.Experiments.Feasibility
import NeuroForge.Lib.Json
import NeuroForge.Promotion.Evidence
import NeuroForge.Experiments.Journal
import NeuroForge.Experiments.Refusals
import NeuroForge.Experiments.Story
import NeuroForge.Experiments.Grain
import NeuroForge.Experiments.Selection
import NeuroForge.Service.Ancestry
import NeuroForge.Service.SettledRuns
import NeuroForge.Lib.Shares
import NeuroForge.Experiments.Configure
import NeuroForge.Experiments.Weighting
import NeuroForge.Evaluation.Pareto
import NeuroForge.Optimization.GridWalk
import NeuroForge.Optimization.Elitism
import NeuroForge.Lib.Tally
import NeuroForge.Optimization.BanditBooks
import NeuroForge.Optimization.Containment
import NeuroForge.Experiments.Dominance
import NeuroForge.Domains.RoundRobin
import NeuroForge.Lib.PyText
import NeuroForge.Domains.BuiltIn
import NeuroForge.Datasets.FailureDriven
import NeuroForge.Genomes.Fields
import NeuroForge.Genomes.Diff
import NeuroForge.Genomes.SignedZero
import NeuroForge.Experiments.Candidate
import NeuroForge.Mutations.Operators
import NeuroForge.Mutations.Engine
import NeuroForge.Mutations.Proposals
import NeuroForge.Genomes.Codec
import NeuroForge.Lib.AtomicFile
import NeuroForge.Lib.JsonScan
import NeuroForge.Lib.JsonText
import NeuroForge.Experiments.CheckpointFile
import NeuroForge.Service.RateLimiter
import NeuroForge.Service.AccessControl
import NeuroForge.Service.Authentication
import NeuroForge.Datasets.Hardening
import NeuroForge.Promotion.Canary
import NeuroForge.Promotion.CanaryArms
import NeuroForge.Genomes.Lineage
import NeuroForge.Lib.KeyedLog
import NeuroForge.Service.CommitOrder
import NeuroForge.Lib.Register
import NeuroForge.Lib.Fifo
import NeuroForge.Service.RunPool
import NeuroForge.Service.RunPlaces
import NeuroForge.Optimization.Unfailing
import NeuroForge.Lib.Grouping
import NeuroForge.Experiments.Spaces
import NeuroForge.Experiments.NeverRaises
import NeuroForge.Lib.Bounded
import NeuroForge.Domains.Provider
import NeuroForge.Domains.Evaluation
import NeuroForge.Experiments.PromptDimension
import NeuroForge.Evaluation.Judges
import NeuroForge.Service.WorkQueue
import NeuroForge.Service.EvolutionGraph
import NeuroForge.Service.Listings
import NeuroForge.Service.CandidatesChart
import NeuroForge.Service.Repair
import NeuroForge.Db.SchemaUpgrade
import NeuroForge.Promotion.Gains
import NeuroForge.Service.Evidenced
import NeuroForge.Service.Ascent
