import RecordLogic.Time.Zone
import RecordLogic.Value.Json

namespace RecordLogic.Formula

/-- The values that a formula can read besides those of the form. -/
abbrev SystemValues := Table Value

namespace SystemValues

/-- The current instant, the start of its local day and the signed-in user. -/
def capture (zone : Time.Zone) (now : Time.Instant) (user : Value) : SystemValues :=
  Table.ofList
    [("NOW", .date now), ("TODAY", .date (zone.startOfDay now)), ("CURRENT_USER", user)]

end SystemValues

/-- Everything that a formula can read. -/
structure Context where
  form : Table Value
  system : SystemValues

namespace Context

def formValue (c : Context) (name : String) : Value :=
  (c.form.find? name).getD .undefined

def systemValue (c : Context) (name : String) : Value :=
  (c.system.find? name).getD .undefined

/-- The form values of a document: the entries of an object, none of anything else. -/
def formOf : Json → Table Value
  | .object entries => Table.ofList (entries.map fun e => (e.1, Value.ofJson e.2))
  | _ => Table.empty

end Context

end RecordLogic.Formula
