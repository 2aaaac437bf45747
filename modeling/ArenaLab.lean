import ArenaLab.Runs
import ArenaLab.TokenBucket
import ArenaLab.GatewayRate
import ArenaLab.HexText
import ArenaLab.Places
import ArenaLab.Identifiers
import ArenaLab.BoundNonce
import ArenaLab.BoundNonceInj
import ArenaLab.AttestServer
import ArenaLab.AttestRuns
import ArenaLab.OneUseChallenges
import ArenaLab.EvidenceBinding
import ArenaLab.Registry
import ArenaLab.RegistrySteps
import ArenaLab.RegistryTable
import ArenaLab.RegistryFlight
import ArenaLab.OwnerIsolation
import ArenaLab.ClosedAdmissions
import ArenaLab.LeaseHistory
import ArenaLab.GroundedLease
import ArenaLab.ChallengeBarrier
import ArenaLab.LabWire
import ArenaLab.WireBytes
import ArenaLab.ByteStores
import ArenaLab.LabCodec
import ArenaLab.LabSequence
import ArenaLab.EvidencePolicy
import ArenaLab.LabServer
import ArenaLab.RingBuffer
import ArenaLab.Adapter
import ArenaLab.AdapterHistory
import ArenaLab.AdapterIsolation
import ArenaLab.AdapterShortcut
import ArenaLab.ProcessTable
import ArenaLab.LabParse
import ArenaLab.LabProcesses
import ArenaLab.LabStop
import ArenaLab.LabManage
import ArenaLab.LabForget
import ArenaLab.SlotHandlers
import ArenaLab.SlotTable
import ArenaLab.ServerReplies
import ArenaLab.Seats
import ArenaLab.LabClient
import ArenaLab.LabConversation
import ArenaLab.LabWorker
import ArenaLab.SupervisedJobs
import ArenaLab.AdapterFaults
import ArenaLab.TunnelPair
import ArenaLab.TunnelOutflow
import ArenaLab.TunnelInflow
import ArenaLab.RelayElsewhere
import ArenaLab.TunnelEnds
import ArenaLab.TunnelOrder
import ArenaLab.GameGraphics
import ArenaLab.HandlerMoves
import ArenaLab.GraphicsRounds
import ArenaLab.GraphicsSession
import ArenaLab.SessionIntegrity
import ArenaLab.SessionHistory
import ArenaLab.EvidenceTransactions
import ArenaLab.GameCore
import ArenaLab.GameRules
import ArenaLab.GameFrame
import ArenaLab.GameCredit
import ArenaLab.LittleEndian
import ArenaLab.Sha256
import ArenaLab.GameRecord
import ArenaLab.GameHost
import ArenaLab.GameIntent
import ArenaLab.GameService
import ArenaLab.ServiceSteps
import ArenaLab.ServiceInvariant
import ArenaLab.MatchService
import ArenaLab.SlotOwnership
import ArenaLab.ActiveMatch
import ArenaLab.Checked
import ArenaLab.ImaReplay
import ArenaLab.ImaFields
import ArenaLab.ImaGrammar
import ArenaLab.ImaChain
import ArenaLab.ImaLimits
import ArenaLab.Admission
import ArenaLab.AdmissionPolicy
import ArenaLab.EventLog
import ArenaLab.NetServer
import ArenaLab.NetFrames
import ArenaLab.NetAdmission
import ArenaLab.NetLobby
import ArenaLab.CombatLog
import ArenaLab.NetCombat
import ArenaLab.AimDetector
import ArenaLab.PeerRoutes
import ArenaLab.RouteTable
import ArenaLab.Gateway
import ArenaLab.GameViewer
import ArenaLab.ViewerStream
import ArenaLab.GatewayChannels
import ArenaLab.GatewayRoutes
import ArenaLab.JsonText
import ArenaLab.JsonReader
import ArenaLab.StrictJson
import ArenaLab.JsonScanner
import ArenaLab.JsonAgreement
import ArenaLab.JsonDumps
import ArenaLab.GatewayIpc
import ArenaLab.Outbox
import ArenaLab.OutboxIds
import ArenaLab.TimedOutbox
import ArenaLab.OutboxCrowd
import ArenaLab.TimedCrowd
import ArenaLab.GatewayQuotas
import ArenaLab.GatewayParent
import ArenaLab.GatewayForward
import ArenaLab.BoundedQueue
import ArenaLab.ChannelWork
import ArenaLab.ChannelGate
import ArenaLab.RelayMoves
import ArenaLab.RelayBooks
import ArenaLab.GatewayGate
import ArenaLab.CloseBarrier
import ArenaLab.Framing
import ArenaLab.GatewayPoll
import ArenaLab.IpcDelivery
import ArenaLab.IpcFrames
import ArenaLab.ServerEmissions
import ArenaLab.ClientEmissions
import ArenaLab.GatewayEmissions
import ArenaLab.Base64
import ArenaLab.QuoteVerifier
import ArenaLab.QuoteRuns
import ArenaLab.EvidenceDecisions
import ArenaLab.FullPipe
