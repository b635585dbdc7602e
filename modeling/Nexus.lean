import Nexus.Channel.Coap
import Nexus.Channel.Network
import Nexus.Lib.Memory
import Nexus.Lib.Tagged
import Nexus.Lib.TokenBucket
import Nexus.Proofs.Alphabet
import Nexus.Proofs.Authentic
import Nexus.Proofs.ByteOrder
import Nexus.Proofs.CoapInPlace
import Nexus.Proofs.Cose
import Nexus.Proofs.Crc
import Nexus.Proofs.CreditControl
import Nexus.Proofs.CreditCycle
import Nexus.Proofs.CreditPost
import Nexus.Proofs.DigitBounds
import Nexus.Proofs.FollowerCredit
import Nexus.Proofs.FreshCredit
import Nexus.Proofs.FullCode
import Nexus.Proofs.GeneratorLimits
import Nexus.Proofs.Grammar
import Nexus.Proofs.HandshakeCallbacks
import Nexus.Proofs.HandshakePayload
import Nexus.Proofs.HandshakeTimeout
import Nexus.Proofs.LinkOrder
import Nexus.Proofs.Mailbox
import Nexus.Proofs.Network
import Nexus.Proofs.NonceReboot
import Nexus.Proofs.NonceRound
import Nexus.Proofs.NonceSync
import Nexus.Proofs.NvBlocks
import Nexus.Proofs.OriginCommands
import Nexus.Proofs.OriginGrammar
import Nexus.Proofs.Pairing
import Nexus.Proofs.PayloadHead
import Nexus.Proofs.PowerLoss
import Nexus.Proofs.QcLimits
import Nexus.Proofs.Reboot
import Nexus.Proofs.Rejection
import Nexus.Proofs.Replay
import Nexus.Proofs.RequestOrigin
import Nexus.Proofs.ResponseOrigin
import Nexus.Proofs.SecuredHandlers
import Nexus.Proofs.SecuredMethods
import Nexus.Proofs.SecuredPackets
import Nexus.Proofs.SmallCode
import Nexus.Proofs.Streams
import Nexus.Proofs.Truncation
import Nexus.Proofs.WholeCode
import Nexus.Proofs.WindowAgree
import Nexus.Proofs.WindowContract
import Nexus.Proofs.WindowRuns
import Nexus.Channel.MessageBuffers
import Nexus.Proofs.MessageBuffers
