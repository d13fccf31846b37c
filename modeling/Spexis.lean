import Spexis.Verification.Admission
import Spexis.Verification.Announcements
import Spexis.Verification.BatchMirror
import Spexis.Verification.BlockMirror
import Spexis.Verification.BlockOwnership
import Spexis.Verification.Detokenizer
import Spexis.Verification.Eviction
import Spexis.Verification.KVCacheSizing
import Spexis.Verification.KVWrites
import Spexis.Verification.LengthAwareBoost
import Spexis.Verification.Losslessness
import Spexis.Verification.MemoryProjection
import Spexis.Verification.MessageQueue
import Spexis.Verification.ServiceOrder
import Spexis.Verification.SharedMemory
import Spexis.Verification.Speculation
import Spexis.Verification.Stranding
import Spexis.Verification.V1.BlockSharing
import Spexis.Verification.V1.EncoderBudget
import Spexis.Verification.V1.NgramProposer
import Spexis.Verification.V1.PagedCache
import Spexis.Verification.V1.Pipeline
import Spexis.Verification.V1.SpecDecode
import Spexis.Verification.Worker.OutputHistory
import Spexis.Verification.Worker.PrepareInputs
import Spexis.Verification.Worker.SamplingState
