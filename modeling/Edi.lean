import Edi.Event.Outline
import Edi.Loop.Json
import Edi.Proofs.Envelope.Language
import Edi.Stream
import Edi.Token
import Edi.Proofs.Envelope.Grammar
import Edi.Proofs.Event.Grammar
import Edi.Proofs.Event.Words
import Edi.Proofs.Event.Progress
import Edi.Proofs.Event.Notices
import Edi.Proofs.Event.WellFormed
import Edi.Proofs.Envelope.InPlace
import Edi.Proofs.Validation.Exact
import Edi.Proofs.Validation.Stream
import Edi.Proofs.Source
import Edi.Proofs.Cursor
import Edi.Proofs.Scanner.Agree
import Edi.Proofs.Reader.Agree
import Edi.Proofs.Delivery
import Edi.Proofs.Policy
import Edi.Proofs.Scanner.Invariant
import Edi.Proofs.Reader.Invariant
import Edi.Proofs.Refusal
import Edi.Proofs.Conservation
import Edi.Proofs.Envelope.Shift
import Edi.Proofs.Segment.Shift
import Edi.Proofs.Scanner.Follow
import Edi.Proofs.Envelope.Preamble
import Edi.Proofs.Reader.Shift
import Edi.Proofs.Reader.Follow
import Edi.Proofs.Causality
import Edi.Proofs.Composition
import Edi.Proofs.Readings
import Edi.Proofs.Segment.Balanced
import Edi.Proofs.Envelope.Unlooped
import Edi.Proofs.Unlooped
import Edi.Proofs.Event.Surroundings
import Edi.Proofs.Envelope.Surroundings
import Edi.Proofs.Envelope.Placed
import Edi.Proofs.Reader.Run
import Edi.Proofs.Reader.State
import Edi.Proofs.Envelope.Stated
import Edi.Proofs.Closings
import Edi.Proofs.Scanner.Renaming
import Edi.Proofs.Envelope.Marks
import Edi.Proofs.Reader.Renaming
import Edi.Proofs.Redelimited
import Edi.Proofs.Error
import Edi.Proofs.Scanner.Fault
import Edi.Proofs.Reader.Fault
import Edi.Proofs.Faults
import Edi.Proofs.Ending
import Edi.Proofs.Relocation
import Edi.Proofs.Scanner.Ahead
import Edi.Proofs.Heading
import Edi.Proofs.Reparsing
import Edi.Proofs.Scanner.Trace
import Edi.Proofs.Tiling
import Edi.Proofs.Lossless
import Edi.Proofs.ReadBack
import Edi.Proofs.Scanner.Parallel
import Edi.Proofs.SegmentText
import Edi.Proofs.Handoff
import Edi.Proofs.Transcript
import Edi.Proofs.Token
import Edi.Proofs.Unread
import Edi.Proofs.Scanner.Alike
import Edi.Proofs.Peeking
import Edi.Proofs.Segment.Feed
import Edi.Proofs.Segment.Trimmed
import Edi.Proofs.Trimming
import Edi.Proofs.Segment.Counted
import Edi.Proofs.ElementLength
import Edi.Proofs.Envelope.Decoded
import Edi.Proofs.Segment.Numbered
import Edi.Proofs.Envelope.Rebuilt
import Edi.Proofs.Output
import Edi.Proofs.Rebuilding
import Edi.Proofs.Loop.Levels
import Edi.Proofs.Advice
import Edi.Proofs.Segment.Shown
import Edi.Proofs.DataSegments
import Edi.Proofs.Text.Lossy
import Edi.Proofs.Decoding
import Edi.Proofs.Loop.Matched
import Edi.Proofs.Loop.Selection
import Edi.Proofs.Buffer
import Edi.Proofs.ControlNumber
import Edi.Proofs.Timestamp.Documented
