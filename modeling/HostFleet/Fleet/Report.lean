import HostFleet.Fleet.Resolution

/-!
# Reports about hosts

A report lists hosts with whether they have a configuration. Its summary is what the user sees of it at the end.
-/

namespace HostFleet

structure ReportEntry where
  host : String
  passed : Bool
  message : Option String
  deriving DecidableEq, Repr

/-- What is reported about some hosts, in order. -/
abbrev Report := List ReportEntry

def ReportEntry.line (e : ReportEntry) : String :=
  let mark := if e.passed then "\x1b[32m✓ " else "\x1b[31m✗ "
  let detail := match e.message with
    | none => ""
    | some message => " (" ++ message ++ ")"
  mark ++ e.host ++ detail ++ "\x1b[0m"

namespace Report

def failures (r : Report) : Nat := (r.filter fun e => !e.passed).length

/-- The last line of the summary. -/
def total (r : Report) : String :=
  toString r.length ++ " hosts: \x1b[32m" ++ toString (r.length - r.failures) ++ " ok\x1b[0m, \x1b[31m"
    ++ toString r.failures ++ " failed\x1b[0m"

/-- What is said at the end; nothing if there are no hosts. -/
def summary (r : Report) : List Log.Event :=
  if r.isEmpty then []
  else .stage "Summary" :: r.map (fun e => .info e.line) ++ [.info r.total]

end Report

namespace Fleet

def shortDigest : Nat := 12

/-- What is reported and said about a host. -/
def assess (host : String) : Except FleetFault Configuration → ReportEntry × Log.Event
  | .ok c =>
    let digest := c.packages.digest
    (⟨host, true, some (c.platform.name ++ " " ++ String.ofList (digest.toList.take shortDigest))⟩,
      .debug (host ++ ": " ++ toString c.modules.length ++ " modules, " ++ toString c.packages.size
        ++ " packages, package set " ++ digest))
  | .error fault => (⟨host, false, some fault.message⟩, .error (host ++ ": " ++ fault.message))

/-- Says what was found out about hosts and gives it as a report. -/
def tell (assessed : List (ReportEntry × Log.Event)) : StateM Run Report := do
  assessed.forM fun a => Run.say a.2
  Run.say (.debug (toString (← get).builds ++ " package set build(s)"))
  let report := assessed.map Prod.fst
  Report.summary report |>.forM Run.say
  return report

/-- Resolves every host and reports on each, in the order of their names. -/
def report (fleet : Fleet) : StateM Run Report := do
  Run.say (.stage "Resolving hosts")
  let results ← fleet.resolveAll
  tell (results.map fun found => assess found.1 found.2)

/-- Whether a report is good news. -/
def verdict (report : Report) : Except Failure Unit :=
  if 0 < report.failures then .error { cause := .note (toString report.failures ++ " host(s) failed") } else .ok ()

end Fleet

end HostFleet
