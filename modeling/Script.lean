import Script.Main
import Script.Program.Rendering
import Script.Proofs.Evaluation.Arithmetic
import Script.Proofs.Evaluation.CallDepth
import Script.Proofs.Evaluation.DepthLimit
import Script.Proofs.Evaluation.Encapsulation
import Script.Proofs.Evaluation.Failure
import Script.Proofs.Evaluation.Finalizers
import Script.Proofs.Evaluation.HashLiterals
import Script.Proofs.Evaluation.Identities
import Script.Proofs.Evaluation.Joining
import Script.Proofs.Evaluation.Jumps
import Script.Proofs.Evaluation.Membership
import Script.Proofs.Evaluation.Numerals
import Script.Proofs.Evaluation.Rendering
import Script.Proofs.Evaluation.Resolution
import Script.Proofs.Evaluation.Sequences
import Script.Proofs.Evaluation.Termination
import Script.Proofs.Evaluation.Unmentioned
import Script.Proofs.Grammar.Completeness
import Script.Proofs.Grammar.Termination
import Script.Proofs.Grammar.TokenOrder
import Script.Proofs.Program.Comments
import Script.Proofs.Program.Diagnosis
import Script.Proofs.Program.Operators
import Script.Proofs.Program.Recovery
import Script.Proofs.Program.RoundTrip
import Script.Proofs.Program.Sequence
import Script.Proofs.Repl.Transcript
import Script.Proofs.Token.Respelling
import Script.Proofs.Value.Ordering
