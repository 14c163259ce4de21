import RuleSurvey.Report
import RuleSurvey.Scan
import RuleSurvey.Sources

namespace RuleSurvey

/-!
The survey of a rule root. First its three base files and its rule files are read and the includes
are looked up; all of that is the findings. From the findings alone, names are matched to files and
the files that no reference reaches are listed.
-/

/-- Where the base files of a root are expected. -/
structure BasePaths where
  includes : Path
  load : Path
  rules : Path
deriving DecidableEq, Repr

namespace BasePaths

def ofRoot (root : Path) (options : SurveyOptions) : BasePaths where
  includes := root.join (.ofString options.includesFile)
  load := root.join (.ofString options.loadFile)
  rules := root.join (.ofString options.dispatchFile)

def displays (paths : BasePaths) : List String :=
  [paths.includes.display, paths.load.display, paths.rules.display]

end BasePaths

/-- What has been read and looked up before names are matched. -/
structure Findings where
  includes : List Include
  loadCalls : List String
  rules : List DispatchRule
  files : List RuleFile
  resolutions : List ResolvedInclude

namespace Findings

def ruleFiles (findings : Findings) : List String :=
  findings.files.map (·.path)

def catalog (findings : Findings) : Catalog :=
  .ofRuleFiles findings.files

/-- The names that includes give and rules call, in this order and with repeats. -/
def names (findings : Findings) : List String :=
  findings.includes.map (·.name) ++ findings.rules.flatMap (·.functions)

def table (findings : Findings) : Logged MatchTable :=
  MatchTable.build findings.catalog findings.names

def traversal (findings : Findings) (table : MatchTable) : Traversal where
  includes := findings.includes
  rules := findings.rules
  ruleFiles := findings.ruleFiles
  table

end Findings

namespace Disk

def findings (disk : Disk) (options : SurveyOptions) (target : Target) : Logged Findings := do
  let paths := BasePaths.ofRoot target.root options
  let includes ← disk.includes paths.includes
  let loadCalls ← disk.loadCalls paths.load
  let rules ← disk.dispatchRules paths.rules
  let found ← disk.ruleFiles options.scan target
  let files ← Logged.forEach found disk.ruleFile
  let resolutions ← Logged.forEach includes fun entry =>
    disk.resolveInclude target.root entry.name entry.path
  pure { includes, loadCalls, rules, files, resolutions }

/-- The place of a base file, if something is there. -/
def basePlace (disk : Disk) (path : Path) : Option String :=
  if disk.has path then some path.display else none

def basePlaces (disk : Disk) (paths : BasePaths) : BasePlaces where
  includes := disk.basePlace paths.includes
  load := disk.basePlace paths.load
  rules := disk.basePlace paths.rules

end Disk

def surveyMessage (root : Path) (traversal : Traversal) (edges : List Reference) : String :=
  "Inspected " ++ root.display ++ ": " ++ toString traversal.ruleFiles.length ++ " rule files, " ++
    toString traversal.includes.length ++ " includes, " ++ toString traversal.rules.length ++
    " dispatch rules, " ++ toString edges.length ++ " edges (" ++ traversal.source.label ++ ")"

/-- What is listed as unreached leaves out the files shown under the path of a base file. -/
def survey (disk : Disk) (options : SurveyOptions) (target : Target) : Logged Report := do
  let paths := BasePaths.ofRoot target.root options
  let findings ← disk.findings options target
  let table ← findings.table
  let traversal := findings.traversal table
  let edges := traversal.edges
  let graph ← ReachGraph.build edges traversal.ruleFiles
  record .info .inspection (surveyMessage target.root traversal edges)
  pure {
    root := target.root.display
    base := disk.basePlaces paths
    includes := findings.includes
    resolutions := findings.resolutions
    loadCalls := findings.loadCalls
    rules := findings.rules
    order := traversal.order
    edges
    ruleFiles := traversal.ruleFiles
    files := findings.files
    matched := table
    missing := traversal.missing findings.catalog findings.loadCalls findings.resolutions
    unreached := graph.unreached.filter fun file => !paths.displays.contains file }

end RuleSurvey
