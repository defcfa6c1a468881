import StreamCheck.Journal
import StreamCheck.Pipeline.Assignment
import StreamCheck.Settings.Environment
import StreamCheck.Smv.Bracketing
import StreamCheck.Verification.Factory
import StreamCheck.Verification.Fate
import StreamCheck.Verification.Summary
import StreamCheck.Proofs.Circuit.Parts
import StreamCheck.Proofs.Queue.Fifo
import StreamCheck.Proofs.Circuit.Bracketing
import StreamCheck.Proofs.Circuit.Runs
import StreamCheck.Proofs.Queue.Firing
import StreamCheck.Network.Session
import StreamCheck.Proofs.Network.Change
import StreamCheck.Proofs.Network.Feeding
import StreamCheck.Network.Route
import StreamCheck.Proofs.Network.Instances
import StreamCheck.Proofs.Network.Producers
import StreamCheck.Proofs.Network.Routes
import StreamCheck.Proofs.Smv.Together
import StreamCheck.Proofs.Network.Courses
import StreamCheck.Proofs.Network.Runs
import StreamCheck.Proofs.Circuit.Unique
import StreamCheck.Proofs.Circuit.Outputs
import StreamCheck.Proofs.Network.Flags
import StreamCheck.Proofs.Formula.Verdicts
import StreamCheck.Proofs.Network.Wires
import StreamCheck.Proofs.Pipeline.Plan
import StreamCheck.Proofs.Pipeline.Drawing
import StreamCheck.Proofs.Pipeline.Sections
import StreamCheck.Proofs.Network.Compiling
import StreamCheck.Proofs.Pipeline.Queries
import StreamCheck.Proofs.Pipeline.Junction
import StreamCheck.Proofs.Pipeline.Assembly
import StreamCheck.Proofs.Pipeline.Keys
import StreamCheck.Proofs.Network.Freezing
import StreamCheck.Proofs.Network.Pipes
import StreamCheck.Proofs.Pipeline.Models
import StreamCheck.Proofs.Pipeline.Verdicts
import StreamCheck.Proofs.Pipeline.Fullness
import StreamCheck.Proofs.Circuit.Sliding
import StreamCheck.Proofs.Pipeline.Sums
import StreamCheck.Proofs.Pipeline.FullQueues
import StreamCheck.Proofs.Pipeline.Twins
import StreamCheck.Proofs.Pipeline.Comparisons
import StreamCheck.Proofs.Network.Nesting
import StreamCheck.Proofs.Network.Sealing
import StreamCheck.Proofs.Network.Outcomes
import StreamCheck.Proofs.Network.PortTypes
import StreamCheck.Proofs.Network.Agreement
import StreamCheck.Pipeline.Request
import StreamCheck.Proofs.Pipeline.Serving
import StreamCheck.Proofs.Pipeline.Requests
import StreamCheck.Proofs.Pipeline.Libraries
import StreamCheck.Proofs.Pipeline.Guards
import StreamCheck.Proofs.Network.Closed
import StreamCheck.Subject.Discovery
import StreamCheck.Proofs.Smv.Letters
import StreamCheck.Proofs.Network.Discovery
import StreamCheck.Proofs.Smv.Typing
import StreamCheck.Proofs.Formula.Typing
import StreamCheck.Proofs.Network.Offers
import StreamCheck.Proofs.Verification.Fitting
import StreamCheck.Proofs.Verification.Fates
import StreamCheck.Proofs.Verification.Batches
import StreamCheck.Verification.Interleaving
import StreamCheck.Proofs.Verification.Interleaving
import StreamCheck.Proofs.Circuit.Accumulating
import StreamCheck.Proofs.Pipeline.Thresholds
import StreamCheck.Proofs.Verification.Reruns
import StreamCheck.Proofs.Verification.Scripts
import StreamCheck.Settings.Precedence
import StreamCheck.Proofs.Settings.Precedence
import StreamCheck.Proofs.Circuit.Windows
import StreamCheck.Proofs.Circuit.Ranks
import StreamCheck.Proofs.Pipeline.Provenance
import StreamCheck.Proofs.Verification.Applicability
import StreamCheck.Proofs.Pipeline.Orders
import StreamCheck.Proofs.Verification.Counting
import StreamCheck.Proofs.Network.Failures
import StreamCheck.Proofs.Pipeline.Parity
import StreamCheck.Proofs.Queue.Lagging
import StreamCheck.Proofs.Pipeline.Products
import StreamCheck.Proofs.Formula.Texts
import StreamCheck.Proofs.Formula.Orders
import StreamCheck.Proofs.Network.Facts
import StreamCheck.Proofs.Decimal.Numerals
import StreamCheck.Proofs.Verification.Lines
import StreamCheck.Proofs.Verification.Statistics
import StreamCheck.Proofs.Verification.Outcomes
import StreamCheck.Proofs.Verification.Summaries
import StreamCheck.Proofs.Circuit.Ranges
