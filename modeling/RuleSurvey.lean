import RuleSurvey.Main
import RuleSurvey.Json.Reader
import RuleSurvey.Options
import RuleSurvey.Proofs.Listing
import RuleSurvey.Proofs.Matching
import RuleSurvey.Proofs.Text
import RuleSurvey.Proofs.DispatchLine
import RuleSurvey.Proofs.Dispatch
import RuleSurvey.Proofs.DispatchText
import RuleSurvey.Proofs.RuleFile
import RuleSurvey.Proofs.Reachability
import RuleSurvey.Proofs.Survey
import RuleSurvey.Proofs.Path
import RuleSurvey.Proofs.Scan
import RuleSurvey.Proofs.BaseFiles
import RuleSurvey.Proofs.Normalize
import RuleSurvey.Proofs.Lookup
import RuleSurvey.Proofs.NormalLookup
import RuleSurvey.Proofs.Resolution
import RuleSurvey.Proofs.Walk
import RuleSurvey.Proofs.Includes
import RuleSurvey.Proofs.ResolvedIncludes
import RuleSurvey.Proofs.BasePlaces
import RuleSurvey.Proofs.JsonText
import RuleSurvey.Proofs.RoundTrip
import RuleSurvey.Proofs.Growth
import RuleSurvey.Proofs.Decoding
import RuleSurvey.Proofs.Arguments
import RuleSurvey.Proofs.Logging
import RuleSurvey.Proofs.Outcome
import RuleSurvey.Proofs.DispatchPattern
import RuleSurvey.Proofs.LoadCalls
import RuleSurvey.Proofs.DeclaredName
import RuleSurvey.Proofs.LineEndings
import RuleSurvey.Proofs.NameLookups
import RuleSurvey.Proofs.LiteralNames
import RuleSurvey.Proofs.ScanCaps
import RuleSurvey.Proofs.Target
import RuleSurvey.Proofs.ReportText
import RuleSurvey.Proofs.OrderTable
import RuleSurvey.Proofs.AssignedLabel
