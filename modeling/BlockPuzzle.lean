import BlockPuzzle.Machine.Rehearsal
import BlockPuzzle.Main
import BlockPuzzle.Playback
import BlockPuzzle.Proofs.Machine.Refinement
import BlockPuzzle.Proofs.Session.Replay
import BlockPuzzle.Proofs.Attempt.Ahead
import BlockPuzzle.Proofs.Attempt.Faithful
import BlockPuzzle.Proofs.Replay.Ahead
import BlockPuzzle.Proofs.Session.Forgetting
import BlockPuzzle.Proofs.Playback.Drain
import BlockPuzzle.Proofs.Playback.Schedule
import BlockPuzzle.Proofs.Playback.Cancel
import BlockPuzzle.Proofs.Program.Ignored
import BlockPuzzle.Proofs.Program.Printing
import BlockPuzzle.Proofs.Form.RoundTrip
import BlockPuzzle.Proofs.Board.Chain
import BlockPuzzle.Proofs.Session.Reports
import BlockPuzzle.Proofs.Session.Progress
import BlockPuzzle.Proofs.Replay.Chronicle
import BlockPuzzle.Proofs.Attempt.Limits
import BlockPuzzle.Proofs.Session.Limits
import BlockPuzzle.Proofs.Machine.Renumbering
import BlockPuzzle.Proofs.Attempt.Renumbering
import BlockPuzzle.Proofs.Program.Rearranging
import BlockPuzzle.Proofs.Session.Rearranging
import BlockPuzzle.Proofs.Attempt.Answers
import BlockPuzzle.Proofs.Session.Senses
import BlockPuzzle.Proofs.Form.Faults
import BlockPuzzle.Proofs.Board.Strays
import BlockPuzzle.Proofs.Storage.Loading
import BlockPuzzle.Proofs.Session.Bounded
import BlockPuzzle.Proofs.Session.Draining
import BlockPuzzle.Proofs.Session.Blocks
import BlockPuzzle.Proofs.Session.Capacity
import BlockPuzzle.Proofs.Storage.Atomic
import BlockPuzzle.Proofs.Form.Joining
import BlockPuzzle.Proofs.Program.Looks
import BlockPuzzle.Proofs.Machine.Looks
import BlockPuzzle.Proofs.Session.Looks
import BlockPuzzle.Proofs.Machine.Resuming
import BlockPuzzle.Proofs.Board.Coordinates
import BlockPuzzle.Proofs.Form.Lossless
