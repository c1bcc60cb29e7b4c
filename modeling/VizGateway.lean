import VizGateway.Lib.Text
import VizGateway.Lib.Turns
import VizGateway.Lib.Handover
import VizGateway.Lib.Checks
import VizGateway.Lib.Runs
import VizGateway.Lib.Prog
import VizGateway.Lib.Pool
import VizGateway.Action
import VizGateway.Fees
import VizGateway.Outbox
import VizGateway.StoreOps
import VizGateway.Policy
import VizGateway.Dispatcher
import VizGateway.DispatcherWorld
import VizGateway.Json
import VizGateway.Libs
import VizGateway.VizChain
import VizGateway.RemoteChains
import VizGateway.GramScan
import VizGateway.SourceValidator
import VizGateway.ReplayLedger
import VizGateway.Signer
import VizGateway.SignerWorld
import VizGateway.Federation
import VizGateway.GramApprove
import VizGateway.Recon
import VizGateway.CapWindow
import VizGateway.Coordinator
import VizGateway.Gateway
import VizGateway.Sample
import VizGateway.Proofs.SourceSoundness
import VizGateway.Proofs.ChildAgreement
import VizGateway.Proofs.SameId
import VizGateway.Proofs.KeyedEffect
import VizGateway.Proofs.SecondSignature
import VizGateway.Proofs.Exclusivity
import VizGateway.Proofs.QuorumSafety
import VizGateway.Proofs.CrashAtomicity
import VizGateway.Proofs.ScanProgress
import VizGateway.Proofs.BurnReaders
import VizGateway.Proofs.VizReaders
import VizGateway.Proofs.SeenRecovery
import VizGateway.Proofs.VizContiguity
import VizGateway.Proofs.GramContiguity
import VizGateway.Proofs.CanonicalText
import VizGateway.Proofs.DepositAmount
import VizGateway.Proofs.CursorWriters
import VizGateway.Proofs.Pagination
import VizGateway.Proofs.OrchestratorQuorum
import VizGateway.Proofs.VizFailover
import VizGateway.Proofs.OutboxClaims
import VizGateway.Proofs.StoreRefinement
import VizGateway.Proofs.PauseLatch
import VizGateway.Proofs.RollingCap
import VizGateway.Proofs.OrderBinding
import VizGateway.Proofs.RejectedRequests
import VizGateway.Proofs.Provenance
import VizGateway.Proofs.HandlerSteps
import VizGateway.Proofs.DispatcherSteps
import VizGateway.Proofs.GatewayRun
import VizGateway.Proofs.GatewayBase
import VizGateway.Proofs.RedriveStability
import VizGateway.Proofs.SolanaConfirmation
import VizGateway.Proofs.FeeAccounting
import VizGateway.Proofs.ReconLoop
import VizGateway.VizSign
import VizGateway.HttpBody
import VizGateway.Lib.LittleEndian
import VizGateway.Lib.Utf8
import VizGateway.DepositProgram
import VizGateway.Lib.JsonTree
import VizGateway.Rotation
import VizGateway.SignerRegistry
import VizGateway.TonRing
import VizGateway.Proofs.QuoteThreshold
import VizGateway.Proofs.MinimalSignatures
import VizGateway.Proofs.BodyChunks
import VizGateway.Proofs.BurnInstruction
import VizGateway.Proofs.RotationProposal
import VizGateway.Proofs.SignerLeases
import VizGateway.Proofs.HeldZero
import VizGateway.Proofs.TonFailover
import VizGateway.Proofs.MintMemo
import VizGateway.TonCells
import VizGateway.OrderCells
import VizGateway.Proofs.OrderMeaning
import VizGateway.Proofs.EffectKinds
import VizGateway.Proofs.AmountText
import VizGateway.Proofs.OperatorText
import VizGateway.Proofs.SlotPagination
import VizGateway.Proofs.StaticFiles
import VizGateway.Proofs.ManifestRewrite
import VizGateway.Proofs.SnapshotCodec
import VizGateway.PegoutScanner
import VizGateway.Proofs.ScannerSteps
import VizGateway.Proofs.ScannerClaims
import VizGateway.Proofs.ScannerTurns
import VizGateway.Proofs.ScannerSource
import VizGateway.Proofs.DepositIds
import VizGateway.Proofs.HandOver
import VizGateway.Proofs.PauseHolds
import VizGateway.Proofs.DeliveryCount
import VizGateway.Proofs.ChildRows
import VizGateway.SolanaWatcher
import VizGateway.Proofs.SolanaContiguity
import VizGateway.VizRotation
import VizGateway.SolanaRotation
import VizGateway.Proofs.SolanaHandoff
import VizGateway.Proofs.VizHandoff
import VizGateway.Lib.JsonBytes
import VizGateway.Wire
import VizGateway.Proofs.WireRoundTrip
import VizGateway.Proofs.SenderRate
