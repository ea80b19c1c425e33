import RangeReader.Channel.Operation
import RangeReader.Channel.Window
import RangeReader.Checkpoint
import RangeReader.Http.Pool
import RangeReader.RemoteObject
import RangeReader.Stage
import RangeReader.Proofs.Chunking
import RangeReader.Proofs.MessagePack
import RangeReader.Proofs.Numeral
import RangeReader.Proofs.Token
import RangeReader.Proofs.HandOver
import RangeReader.Proofs.Receipts
import RangeReader.Proofs.TagConsistency
import RangeReader.Proofs.Download
import RangeReader.Proofs.Coherence
import RangeReader.Proofs.FetchLog
import RangeReader.Proofs.Attempts
import RangeReader.Proofs.Interruptions
import RangeReader.Proofs.RoundTrip
import RangeReader.Proofs.Reissue
import RangeReader.Proofs.OverHttp
import RangeReader.Proofs.EndOfStream
import RangeReader.Proofs.WrittenValues
import RangeReader.Proofs.Echo
import RangeReader.Proofs.TagHandOver
import RangeReader.Proofs.WholeObject
import RangeReader.Proofs.TokenRoom
import RangeReader.Proofs.TokenFaults
import RangeReader.Proofs.FailedReads
import RangeReader.Proofs.Closing
import RangeReader.Proofs.Finality
import RangeReader.Proofs.NoticedChange
import RangeReader.Proofs.ExactRead
import RangeReader.Proofs.FetchGrid
import RangeReader.Proofs.PlainFile
import RangeReader.Proofs.ObjectUrl
import RangeReader.Proofs.LoopBounds
import RangeReader.Proofs.WindowFrame
import RangeReader.Proofs.ReadInRange
import RangeReader.Proofs.SettledTokens
import RangeReader.Proofs.GsUrl
import RangeReader.Proofs.RequestOptions
import RangeReader.Proofs.SentOptions
import RangeReader.Proofs.ResolvedOptions
import RangeReader.Proofs.Base64
import RangeReader.Proofs.CustomerKey
import RangeReader.Proofs.Payload
import RangeReader.Proofs.Codecs
