import IncentivePay.Main
import IncentivePay.Formula.Parser
import IncentivePay.Proofs.Binary64.HalfUpRounding
import IncentivePay.Proofs.Calendar.PeriodTexts
import IncentivePay.Proofs.CommandLine.SnapshotBatch
import IncentivePay.Proofs.Engine.AuditTrail
import IncentivePay.Proofs.Engine.BatchLines
import IncentivePay.Proofs.Engine.HostileFormulas
import IncentivePay.Proofs.Engine.NanFigures
import IncentivePay.Proofs.Engine.ReadInputs
import IncentivePay.Proofs.Formula.CacheGrowth
import IncentivePay.Proofs.Formula.ErrorPlaces
import IncentivePay.Proofs.Formula.ParserDiscipline
import IncentivePay.Proofs.Formula.ParserSteps
import IncentivePay.Proofs.Payout.EvaluationSafety
import IncentivePay.Proofs.Payout.ItemizedReports
import IncentivePay.Proofs.Payout.TemplateMonotonicity
import IncentivePay.Proofs.Wire.RoundTrip
