import TreeWalk.Session
import TreeWalk.Proofs.Machine
import TreeWalk.Proofs.Coherence
import TreeWalk.Proofs.Exchange
import TreeWalk.Proofs.Extension
import TreeWalk.Proofs.Rendering
import TreeWalk.Proofs.Sequences
import TreeWalk.Proofs.Histories
import TreeWalk.Proofs.Effects
import TreeWalk.Proofs.Reports
import TreeWalk.Proofs.Comparisons
import TreeWalk.Proofs.Integers
import TreeWalk.Proofs.Readings
import TreeWalk.Proofs.WholeNumbers
import TreeWalk.Proofs.Malformed
import TreeWalk.Proofs.Quotients
import TreeWalk.Proofs.Equality
import TreeWalk.Proofs.SourceLines
import TreeWalk.Proofs.TraceSetting
import TreeWalk.Proofs.Quotations
