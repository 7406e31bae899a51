/-!
# Storage that is down

- `Outage`: the names of the calls to storage that fail at present.
- `Outage.reason?`: why a call fails, if it does. A call that fails changes nothing.
-/

namespace TableService

/-- The names of the calls that are down. -/
abbrev Outage := List String

/-- The reason is the same for every call but for its name. -/
def Outage.reason? (out : Outage) (call : String) : Option String :=
  if out.contains call then some (call ++ " is down") else none

end TableService
