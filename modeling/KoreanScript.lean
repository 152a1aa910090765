import KoreanScript.Main
import KoreanScript.Tree.Outline
import KoreanScript.Proofs.Recognition
import KoreanScript.Proofs.Isolation
import KoreanScript.Proofs.ReadBack
import KoreanScript.Proofs.Reach
import KoreanScript.Proofs.SpanIndependence
import KoreanScript.Proofs.Tables
import KoreanScript.Proofs.Cut
import KoreanScript.Proofs.Nesting
import KoreanScript.Proofs.EarliestError
import KoreanScript.Proofs.DataReadBack
import KoreanScript.Proofs.Joining
import KoreanScript.Proofs.Provenance
import KoreanScript.Proofs.Sites
import KoreanScript.Proofs.Visibility
import KoreanScript.Proofs.Confinement
import KoreanScript.Proofs.Grounding
import KoreanScript.Proofs.Faults
import KoreanScript.Proofs.Unread
import KoreanScript.Proofs.Returns
import KoreanScript.Proofs.TailReturns
import KoreanScript.Proofs.Transcript
import KoreanScript.Proofs.Naming
import KoreanScript.Proofs.Layout
import KoreanScript.Proofs.Literals
import KoreanScript.Proofs.InsertionOrder
import KoreanScript.Proofs.EndTokens
import KoreanScript.Proofs.Legality
import KoreanScript.Proofs.Parameters
import KoreanScript.Proofs.ListPositions
import KoreanScript.Proofs.Operands
import KoreanScript.Proofs.PartialEquivalence
import KoreanScript.Proofs.Shadowing
import KoreanScript.Proofs.Thresholds
