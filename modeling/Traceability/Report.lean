/-
# Traceability.Report -- the health of a store's links

The report counts the links by their last status.  Its score is the percentage
of valid links, a half rounded up, and zero for a store without links.
-/
import Traceability.Store.Basic

namespace Traceability

set_option autoImplicit false

/-- Counts of links and of requirements without a link. -/
structure HealthReport where
  total : Int
  valid : Int
  /-- Links that are not valid, for whatever reason. -/
  broken : Int
  documentationGaps : Int
deriving DecidableEq, Repr

namespace HealthReport

/-- The report on a store. -/
def ofStore (store : Store) : HealthReport where
  total := store.links.length
  valid := (store.links.filter (·.status = .valid)).length
  broken := (store.links.filter (·.status ≠ .valid)).length
  documentationGaps := store.orphans.unlinkedSources.length

def score (report : HealthReport) : Int :=
  if report.total = 0 then 0 else Int.fdiv (report.valid * 200 + report.total) (report.total * 2)

def isHealthy (report : HealthReport) : Bool := report.broken = 0

def toJson (report : HealthReport) : Json :=
  .object [("healthy", .bool report.isHealthy), ("integrity_score", .int report.score),
    ("links", .object [("total", .int report.total), ("valid", .int report.valid),
      ("broken", .int report.broken)]),
    ("documentation_gaps", .int report.documentationGaps)]

def text (report : HealthReport) : String :=
  "Traceability Health Report\n" ++
    s!"  Integrity score:     {report.score}%\n" ++
    s!"  Links:               {report.total} total, {report.valid} valid," ++
    s!" {report.broken} broken/pending\n" ++
    s!"  Documentation gaps:  {report.documentationGaps}"

end HealthReport

end Traceability
