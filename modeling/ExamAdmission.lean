import ExamAdmission.Main
import ExamAdmission.Http.Api
import ExamAdmission.Proofs.Double.Order
import ExamAdmission.Proofs.Double.Shortest
import ExamAdmission.Proofs.Double.Total
import ExamAdmission.Proofs.Double.Written
import ExamAdmission.Proofs.Rounding.Mirror
import ExamAdmission.Proofs.Rounding.Monotone
import ExamAdmission.Proofs.Rounding.Vanishing
import ExamAdmission.Proofs.Rounding.Written
import ExamAdmission.Proofs.Percent
import ExamAdmission.Proofs.Boundary
import ExamAdmission.Proofs.Whole
import ExamAdmission.Proofs.Course.Assessments
import ExamAdmission.Proofs.Rule.Passing
import ExamAdmission.Proofs.Ruleset.Arithmetic
import ExamAdmission.Proofs.Ruleset.Breakdown
import ExamAdmission.Proofs.Ruleset.Composition
import ExamAdmission.Proofs.Ruleset.Dependence
import ExamAdmission.Proofs.Ruleset.Exemption
import ExamAdmission.Proofs.Ruleset.Improvement
import ExamAdmission.Proofs.Ruleset.Leniency
import ExamAdmission.Proofs.Ruleset.Listing
import ExamAdmission.Proofs.Ruleset.Missing
import ExamAdmission.Proofs.Ruleset.Order
import ExamAdmission.Proofs.Ruleset.Outcome
import ExamAdmission.Proofs.Ruleset.Reported
import ExamAdmission.Proofs.Ruleset.Share
import ExamAdmission.Proofs.Ruleset.Strictness
import ExamAdmission.Proofs.Ruleset.Table
import ExamAdmission.Proofs.Ruleset.Threshold
import ExamAdmission.Proofs.Ruleset.Vacuous
import ExamAdmission.Proofs.Ruleset.Verdicts
import ExamAdmission.Proofs.Store.Answers
import ExamAdmission.Proofs.Store.Kept
import ExamAdmission.Proofs.Store.Single
import ExamAdmission.Proofs.Service.Queries
import ExamAdmission.Proofs.Wire.Variation
import ExamAdmission.Proofs.Settings.Loading
import ExamAdmission.Proofs.Program.DefaultCourse
import ExamAdmission.Proofs.Program.Report
import ExamAdmission.Proofs.Http.Agreement
import ExamAdmission.Proofs.Http.Path
import ExamAdmission.Proofs.Http.Questions
import ExamAdmission.Proofs.Http.ReadBack
import ExamAdmission.Proofs.Http.RequiredPercent
