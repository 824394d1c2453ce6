import MysoCore.Lib.Weight
import MysoCore.Lib.Word
import MysoCore.Lib.Worklist
import MysoCore.Lib.Frontier
import MysoCore.Lib.Scan
import MysoCore.Consensus.Committee
import MysoCore.Consensus.StakeAggregator
import MysoCore.Consensus.Block
import MysoCore.Consensus.DagState
import MysoCore.Consensus.Linearizer
import MysoCore.Consensus.Linearizer.Traversal
import MysoCore.Consensus.Linearizer.Run
import MysoCore.Consensus.Linearizer.Timestamp
import MysoCore.Lib.SortedMap
import MysoCore.Lib.ExceptFold
import MysoCore.Lib.SortedSet
import MysoCore.Consensus.BaseCommitter
import MysoCore.Consensus.CommitFinalizer
import MysoCore.Consensus.CommitFinalizer.Run
import MysoCore.Orderbook.Basic
import MysoCore.Orderbook.Utils
import MysoCore.Orderbook.Order
import MysoCore.Orderbook.Book
import MysoCore.Orderbook.Invariant
import MysoCore.Orderbook.Priority
import MysoCore.Orderbook.Swap
import MysoCore.Consensus.TransactionCertifier
import MysoCore.Lib.Shares
import MysoCore.Lib.Vector
import MysoCore.Social.Basic
import MysoCore.Social.SocialProofOfTruth
import MysoCore.Social.SocialProofOfTruth.Escrow
import MysoCore.Social.SocialProofOfTruth.Resolution
import MysoCore.Social.SocialProofTokens
import MysoCore.Social.SocialProofTokens.Trading
import MysoCore.Social.SocialProofTokens.Reservation
import MysoCore.Social.SocialProofTokens.ReservationLedger
import MysoCore.Social.Insurance
import MysoCore.Social.Insurance.Ledger
import MysoCore.Social.Insurance.Solvency
import MysoCore.Social.Governance
import MysoCore.Social.Governance.Calls
import MysoCore.Social.Governance.Aborts
import MysoCore.Social.Governance.StateMachine
import MysoCore.ExecutionScheduler.FundsWithdraw
import MysoCore.ExecutionScheduler.FundsWithdraw.Naive
import MysoCore.ExecutionScheduler.FundsWithdraw.Eager
import MysoCore.Consensus.ThresholdClock
import MysoCore.Consensus.LeaderSchedule
import MysoCore.Consensus.DagState.Ancestors
import MysoCore.Consensus.DagState.Inclusion
import MysoCore.Consensus.UniversalCommitter
import MysoCore.Consensus.DagState.Cache
import MysoCore.Lib.Fence
import MysoCore.Orderbook.BigVector
import MysoCore.Orderbook.BigVector.Navigation
import MysoCore.Social.SocialProofTokens.Curve
import MysoCore.Lib.Rounding
import MysoCore.GasModel.Tables
import MysoCore.GasModel.GasV2
import MysoCore.Orderbook.MySoPrice
import MysoCore.Social.Governance.Ballots
import MysoCore.Social.Insurance.Payouts
import MysoCore.Social.SocialProofOfTruth.Dust
import MysoCore.Social.SocialProofTokens.Holders
import MysoCore.ExecutionScheduler.FundsWithdraw.EagerAccount
import MysoCore.ExecutionScheduler.FundsWithdraw.EagerRuns
import MysoCore.Lib.VecMap
import MysoCore.Orderbook.Account
import MysoCore.Orderbook.Governance
import MysoCore.Orderbook.History
import MysoCore.Orderbook.State
import MysoCore.Orderbook.State.Invariant
import MysoCore.Orderbook.State.Quorum
import MysoCore.Orderbook.State.Runs
