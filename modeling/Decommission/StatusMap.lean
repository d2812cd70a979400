import Decommission.Component
import Decommission.NameMap

/-!
# The last status of each component

While a phase runs, the last status reported for each name is kept.  The entries
are in ascending order of the names, which is the order in which a failed run
lists them.
-/

namespace Decommission

/-- The last status of each component, by name. -/
abbrev StatusMap := NameMap Status

/-- Take note of a report.  It replaces what was known of the same name. -/
def StatusMap.record (m : StatusMap) (r : Report) : StatusMap := NameMap.insert m r.name r.status

theorem StatusMap.get?_record (m : StatusMap) (r : Report) (name : String) :
    NameMap.get? (m.record r) name = if r.name = name then some r.status else NameMap.get? m name :=
  NameMap.get?_insert m r.name r.status name

end Decommission
