import AmbiLex.Buffer.TextFilter
import AmbiLex.Engine.Scripted
import AmbiLex.Engine.Sequence
import AmbiLex.Interface
import AmbiLex.Lexer.Run
import AmbiLex.Recognizer.Scripted
import AmbiLex.Regex.Reader
import AmbiLex.Store.Callbacks
import AmbiLex.Proofs.Buffer.Growth
import AmbiLex.Proofs.Token.Usable
import AmbiLex.Proofs.Buffer.Facing
import AmbiLex.Proofs.Token.Seeking
import AmbiLex.Proofs.Token.Truncation
import AmbiLex.Proofs.History
import AmbiLex.Proofs.Run.Moves
import AmbiLex.Proofs.Run.Akin
import AmbiLex.Proofs.Run.Moved
import AmbiLex.Proofs.Run.Alignment
import AmbiLex.Proofs.Run.ChunkIndependence
import AmbiLex.Proofs.Sequence.Chains
import AmbiLex.Proofs.Sequence.Listing
import AmbiLex.Proofs.Sequence.Completeness
import AmbiLex.Proofs.Sequence.Verdict
import AmbiLex.Proofs.Engine.Sequence
import AmbiLex.Proofs.Sequence.Placement
import AmbiLex.Proofs.Sequence.Outcome
import AmbiLex.Proofs.Sequence.Coverage
import AmbiLex.Proofs.Buffer.LineEndings
import AmbiLex.Proofs.Token.LineEndings
import AmbiLex.Proofs.Sequence.LineEndings
import AmbiLex.Proofs.Sequence.TornEndings
import AmbiLex.Proofs.Buffer.Conservation
import AmbiLex.Proofs.Run.Stopped
import AmbiLex.Proofs.Run.Termination
import AmbiLex.Proofs.Sequence.Termination
import AmbiLex.Proofs.Run.Protocol
import AmbiLex.Proofs.Sequence.Forced
import AmbiLex.Proofs.Token.Stretches
import AmbiLex.Proofs.Sequence.Words
import AmbiLex.Proofs.Sequence.Routes
import AmbiLex.Proofs.Run.LookAhead
import AmbiLex.Proofs.Run.Diagnostics
import AmbiLex.Proofs.Sequence.Halting
import AmbiLex.Proofs.Sequence.Reordering
import AmbiLex.Proofs.Token.Trickling
import AmbiLex.Proofs.Sequence.Rivals
import AmbiLex.Proofs.Buffer.Counted
import AmbiLex.Proofs.Buffer.Refilling
import AmbiLex.Proofs.Token.Retrying
import AmbiLex.Proofs.Token.Literals
import AmbiLex.Proofs.Token.Definitions
import AmbiLex.Proofs.Token.Tables
import AmbiLex.Proofs.Text.Escape
import AmbiLex.Proofs.Engine.Calls
import AmbiLex.Proofs.Buffer.Raising
import AmbiLex.Proofs.Engine.Failures
