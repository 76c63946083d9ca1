import OmniBinder.Proofs.BufferContract
import OmniBinder.Proofs.CIdentifiers
import OmniBinder.Proofs.CppCodecSpec
import OmniBinder.Proofs.EncoderAgreement
import OmniBinder.Proofs.ImportGraph
import OmniBinder.Proofs.InvokeReplies
import OmniBinder.Proofs.PollBudget
import OmniBinder.Proofs.PostOrder
import OmniBinder.Proofs.RingWords
import OmniBinder.Proofs.SelectorAgreement
import OmniBinder.Proofs.SessionKeys
import OmniBinder.Proofs.SmByteOrder
import OmniBinder.Proofs.SmEndpoints
import OmniBinder.Proofs.SmReplies
import OmniBinder.Proofs.SmWatches
import OmniBinder.Proofs.Timers
import OmniBinder.Proofs.TopicIsolation
import OmniBinder.Proofs.UnregisterFrame
import OmniBinder.Proofs.WakeUp
import OmniBinder.Proofs.WatchOrder
