import Paytp.Proofs.FailedDecision
import Paytp.Proofs.ConsumedNonces
import Paytp.Proofs.ArrivalOrder
import Paytp.Proofs.SingleRefund
import Paytp.Proofs.SettledOnce
import Paytp.Proofs.Watermark
import Paytp.Proofs.PostpayBalance
import Paytp.Proofs.PrepaySolvency
import Paytp.Proofs.EvidenceBound
import Paytp.Proofs.SingleCredit
import Paytp.Proofs.Exposure
import Paytp.Proofs.Agreement
import Paytp.Proofs.Silence
import Paytp.Proofs.ChainTip
import Paytp.Proofs.NoOracle
import Paytp.Proofs.SplitDivider
import Paytp.Kit.Program
import Paytp.Proofs.EntryEscrow
import Paytp.Lifecycle
import Paytp.Proofs.Lifecycle
import Paytp.Crediting
import Paytp.Proofs.Folds
import Paytp.Proofs.Advances
import Paytp.Rounds
import Paytp.Proofs.Rounds
import Paytp.Tlv
import Paytp.Kit.ChannelMeed
import Paytp.Proofs.HostShares
import Paytp.Proofs.Destinations
import Paytp.Proofs.Deliveries
import Paytp.Proofs.ChannelMeed
import Paytp.HostedRail
import Paytp.AsyncRail
import Paytp.Proofs.Conservation
import Paytp.Proofs.Inclusions
import Paytp.Proofs.Reorgs
import Paytp.Json
import Paytp.Quote
import Paytp.Redemption
import Paytp.MachineMetering
import Paytp.Proofs.Pauses
import Paytp.Proofs.Overflows
import Paytp.Proofs.ImportedBalance
import Paytp.Proofs.Guards
import Paytp.Proofs.Restarts
import Paytp.EstablishWire
import Paytp.SettleWire
import Paytp.CheckpointWire
import Paytp.Proofs.Slots
import Paytp.Proofs.Establishment
import Paytp.Proofs.SettleMessages
import Paytp.Proofs.Checkpoints
import Paytp.Proofs.Recharge
import Paytp.EntryRail
import Paytp.TwoLeg
import Paytp.Proofs.Objects
import Paytp.Proofs.Integers
import Paytp.Proofs.Credits
import Paytp.Proofs.Snapshots
import Paytp.Proofs.Derivations
import Paytp.Proofs.Hosts
import Paytp.Proofs.SignedContent
import Paytp.Proofs.RedemptionLogs
import Paytp.Wallet.Execute
import Paytp.Requirements
import Paytp.Baseline
import Paytp.Till
import Paytp.Proofs.Recorded
import Paytp.Proofs.Selection
import Paytp.Proofs.SameOffer
import Paytp.Proofs.BuiltQuotes
import Paytp.Proofs.Honoured
import Paytp.Proofs.StoredReceipts
import Paytp.Proofs.TillRuns
import Paytp.Proofs.Retries
import Paytp.Registry
import Paytp.Proofs.RegistryStores
import Paytp.Roles
import Paytp.Proofs.RoleHeaders
import Paytp.Client
import Paytp.Proofs.RolesPaid
import Paytp.Proofs.LayersPaid
