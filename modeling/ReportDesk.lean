import ReportDesk.Main
import ReportDesk.Report.Task
import ReportDesk.Proofs.Formula.Conjunction
import ReportDesk.Proofs.Report.Reload
import ReportDesk.Proofs.Report.Following
import ReportDesk.Proofs.Report.Submission
import ReportDesk.Proofs.Workbook.Preview
import ReportDesk.Proofs.Formula.Splicing
import ReportDesk.Proofs.Formula.Precedence
import ReportDesk.Proofs.Dependency.References
import ReportDesk.Proofs.Formula.ParentField
import ReportDesk.Proofs.Report.Commit
import ReportDesk.Proofs.Formula.Lengths
import ReportDesk.Proofs.Formula.Sum
import ReportDesk.Proofs.Table.JsonForm
import ReportDesk.Proofs.Report.Numbering
import ReportDesk.Proofs.Formula.Confinement
