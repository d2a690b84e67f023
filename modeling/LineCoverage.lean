import LineCoverage.Coverage.Description
import LineCoverage.Main
import LineCoverage.Proofs.Command.Input
import LineCoverage.Proofs.Command.Publication
import LineCoverage.Proofs.Coverage.Chunking
import LineCoverage.Proofs.Coverage.Concatenation
import LineCoverage.Proofs.Coverage.FirstSeen
import LineCoverage.Proofs.Coverage.Looking
import LineCoverage.Proofs.Coverage.NoFile
import LineCoverage.Proofs.Coverage.Placement
import LineCoverage.Proofs.Coverage.Reordering
import LineCoverage.Proofs.Coverage.Resolution
import LineCoverage.Proofs.Coverage.Selection
import LineCoverage.Proofs.Coverage.Separation
import LineCoverage.Proofs.Coverage.WellFormed
import LineCoverage.Proofs.Relocation.Stepping
import LineCoverage.Proofs.Relocation.Transparency
import LineCoverage.Proofs.Report.Addresses
import LineCoverage.Proofs.Report.Agreement
import LineCoverage.Proofs.Report.Color
import LineCoverage.Proofs.Report.Columns
import LineCoverage.Proofs.Report.Containment
import LineCoverage.Proofs.Report.Percentages
import LineCoverage.Proofs.Text.Tags
import LineCoverage.Proofs.Trace.Accounting
import LineCoverage.Proofs.Trace.Atomicity
import LineCoverage.Proofs.Trace.Header
import LineCoverage.Proofs.Trace.Layout
import LineCoverage.Proofs.Trace.Session
