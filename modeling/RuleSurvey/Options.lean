import RuleSurvey.Json.Decode

namespace RuleSurvey

/-!
What can be chosen for a survey: how rule files are found, and the names of the three base files.
-/

structure ScanOptions where
  /-- Without its dot. -/
  extension : String := "rules"
  /-- How many levels below the root are looked at. -/
  maxDepth : Nat := 64
  /-- How many rule files are kept. -/
  maxFiles : Nat := 100000
deriving DecidableEq, Repr

structure SurveyOptions where
  scan : ScanOptions := {}
  includesFile : String := "base.includes"
  loadFile : String := "base.load"
  dispatchFile : String := "base.rules"
deriving DecidableEq, Repr

/-! Options as JSON. When they are read, a field that is left out takes its default. -/

def ScanOptions.toJson (options : ScanOptions) : Json :=
  .object [
    ("extension", .text options.extension),
    ("max_depth", .natural options.maxDepth),
    ("max_files", .natural options.maxFiles)]

def ScanOptions.ofJson? (json : Json) : Option ScanOptions := do
  let members ← json.defaultedMembers? ["extension", "max_depth", "max_files"]
  let defaults : ScanOptions := {}
  some {
    extension := ← members.withDefault? Json.asText? "extension" defaults.extension
    maxDepth := ← members.withDefault? Json.asCount? "max_depth" defaults.maxDepth
    maxFiles := ← members.withDefault? Json.asCount? "max_files" defaults.maxFiles }

def SurveyOptions.toJson (options : SurveyOptions) : Json :=
  .object [
    ("scan", options.scan.toJson),
    ("includes_file", .text options.includesFile),
    ("load_file", .text options.loadFile),
    ("dispatch_file", .text options.dispatchFile)]

def SurveyOptions.ofJson? (json : Json) : Option SurveyOptions := do
  let members ← json.defaultedMembers? ["scan", "includes_file", "load_file", "dispatch_file"]
  let defaults : SurveyOptions := {}
  some {
    scan := ← members.withDefault? ScanOptions.ofJson? "scan" defaults.scan
    includesFile := ← members.withDefault? Json.asText? "includes_file" defaults.includesFile
    loadFile := ← members.withDefault? Json.asText? "load_file" defaults.loadFile
    dispatchFile := ← members.withDefault? Json.asText? "dispatch_file" defaults.dispatchFile }

end RuleSurvey
