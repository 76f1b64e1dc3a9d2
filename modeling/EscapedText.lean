import EscapedText.Session
import EscapedText.Description
import EscapedText.ByteView.Collect
import EscapedText.Command.World
import EscapedText.Main
import EscapedText.Proofs.Language
import EscapedText.Proofs.Resumption
import EscapedText.Proofs.ByteDelivery
import EscapedText.Proofs.Rendering
import EscapedText.Proofs.Agreement
import EscapedText.Proofs.Streaming
import EscapedText.Proofs.Stacking
import EscapedText.Proofs.Segments
import EscapedText.Proofs.ByteReading
import EscapedText.Proofs.Interchange
import EscapedText.Proofs.Collecting
import EscapedText.Proofs.Interruptions
import EscapedText.Proofs.Stretches
import EscapedText.Proofs.Closing
import EscapedText.Proofs.Decoding
import EscapedText.Proofs.Copying
import EscapedText.Proofs.Channels
import EscapedText.Proofs.Buffering
import EscapedText.Proofs.Commands
import EscapedText.Proofs.Translations
import EscapedText.Proofs.Coordinates
import EscapedText.Proofs.History
import EscapedText.Proofs.Places
import EscapedText.Proofs.Unplaced
import EscapedText.Proofs.Checking
import EscapedText.Proofs.Following
import EscapedText.Proofs.Ledger
import EscapedText.Proofs.Consuming
import EscapedText.Proofs.Surroundings
import EscapedText.Proofs.Openings
import EscapedText.Proofs.Parity
import EscapedText.Proofs.Reporting
import EscapedText.Proofs.Cues
import EscapedText.Proofs.Spending
import EscapedText.Proofs.Metering
import EscapedText.Proofs.Ending
import EscapedText.Proofs.Budget
import EscapedText.Proofs.Displacing
import EscapedText.Proofs.Joining
import EscapedText.Proofs.Handover
import EscapedText.Proofs.Routines
import EscapedText.Proofs.Slices
import EscapedText.Proofs.Cloning
