import Protobuf.Main
import Protobuf.Varint.Word
import Protobuf.ZigZag.Checked
import Protobuf.Escape.Token
import Protobuf.Escape.Indexed
import Protobuf.Extent
import Protobuf.Conforming
import Protobuf.FieldTree
import Protobuf.Decoder.Session
import Protobuf.Encoder.Writer
import Protobuf.Encoder.Stepwise
import Protobuf.Encoder.Session
import Protobuf.Proofs.Concatenation
import Protobuf.Proofs.ReadBack
import Protobuf.Proofs.Occurrences
import Protobuf.Proofs.TextMap
import Protobuf.Proofs.Tables
import Protobuf.Proofs.Overlay
import Protobuf.Proofs.RoundTrip
import Protobuf.Proofs.Merging
import Protobuf.Proofs.NormalForm
import Protobuf.Proofs.Appending
import Protobuf.Proofs.FieldTree
import Protobuf.Proofs.Delivery
import Protobuf.Proofs.Batch
import Protobuf.Proofs.Arrival
import Protobuf.Proofs.Skipping
import Protobuf.Proofs.Conforming
import Protobuf.Proofs.WireFields
import Protobuf.Proofs.Spelling
import Protobuf.Proofs.Truncation
import Protobuf.Proofs.UnknownFields
import Protobuf.Proofs.Independence
import Protobuf.CanonicalForm
import Protobuf.Proofs.CanonicalScalar
import Protobuf.Proofs.CanonicalKind
import Protobuf.Proofs.CanonicalForm
import Protobuf.Proofs.Escape
import Protobuf.Proofs.RequestPolicy
import Protobuf.Proofs.DebugLine
import Protobuf.Proofs.Residue
import Protobuf.Proofs.Safety
import Protobuf.Proofs.Sessions
import Protobuf.Proofs.PrefixFree
import Protobuf.Proofs.Rounds
import Protobuf.Proofs.UnknownFraming
import Protobuf.Proofs.Width
import Protobuf.Proofs.FaultText
import Protobuf.Proofs.Amplification
import Protobuf.Proofs.ResponseBound
import Protobuf.Proofs.Words
import Protobuf.Proofs.ShortestVarint
import Protobuf.Proofs.VarintLanguage
import Protobuf.Proofs.Alike
import Protobuf.Proofs.Narrowing
import Protobuf.Proofs.Tiling
import Protobuf.Proofs.Writing
import Protobuf.Proofs.Refusal
import Protobuf.Proofs.Storage
import Protobuf.Proofs.Packing
import Protobuf.Proofs.MapEntries
import Protobuf.Proofs.FailedReads
import Protobuf.Proofs.EscapedText
import Protobuf.Proofs.EscapeDigits
import Protobuf.Proofs.EscapeIndexed
import Protobuf.Proofs.EscapeGrammar
import Protobuf.Proofs.Folding
