import ScriptReader.Lending
import ScriptReader.Main
import ScriptReader.Proofs.Chains
import ScriptReader.Proofs.Concatenation
import ScriptReader.Proofs.Counters
import ScriptReader.Proofs.Cursor
import ScriptReader.Proofs.Ending
import ScriptReader.Proofs.LastToken
import ScriptReader.Proofs.Lending
import ScriptReader.Proofs.Limits
import ScriptReader.Proofs.Metering
import ScriptReader.Proofs.Numerals
import ScriptReader.Proofs.Order
import ScriptReader.Proofs.Readback
import ScriptReader.Proofs.Recovery
import ScriptReader.Proofs.Registration
import ScriptReader.Proofs.Relabelling
import ScriptReader.Proofs.Reports
import ScriptReader.Proofs.Seams
import ScriptReader.Proofs.Segments
import ScriptReader.Proofs.Sessions
import ScriptReader.Proofs.Sources
import ScriptReader.Proofs.Spelling
import ScriptReader.Proofs.Truthfulness
import ScriptReader.Proofs.Unambiguity
import ScriptReader.Proofs.Viability
import ScriptReader.Tree.Equality
import ScriptReader.Tree.Outline
