import Tighten.Field
import Tighten.Json.Shown

/-
The report on a record with refused fields.

Every refused value comes with the place in the manual where its cause is explained.  There is a
manual for each version of the rules that fields follow.  A value is shown unless it nests too
deeply for that, and how deeply that is depends on the machine.
-/
namespace Tighten

/-- What reports depend on. -/
structure FieldRules where
  /-- The version of the rules that fields follow. -/
  version : String
  /-- Whether a value can be shown. -/
  shows : Json → Bool

namespace FieldRules

variable (rules : FieldRules)

/-- Where the causes are explained. -/
def manual : String :=
  s!"https://errors.pydantic.dev/{rules.version}/v/"

/-- A value in a report. -/
def shown (value : Json) : String :=
  if rules.shows value then value.excerpt else s!"<unprintable {value.kindName} object>"

end FieldRules

namespace FieldError

/-- The lines on one refused value.  A fault of the record as a whole has no line for its place. -/
def reportLines (rules : FieldRules) (e : FieldError) : List String :=
  let place := if e.path.isEmpty then [] else [".".intercalate e.path]
  place ++
    [s!"  {e.fault.message} [type={e.fault.name}, input_value={rules.shown e.input}, " ++
        s!"input_type={e.input.kindName}]",
      s!"    For further information visit {rules.manual}{e.fault.name}"]

/-- The report on all refused values of a record of the named kind. -/
def report (rules : FieldRules) (model : String) (errors : List FieldError) : String :=
  let plural := if errors.length = 1 then "" else "s"
  "\n".intercalate (s!"{errors.length} validation error{plural} for {model}" ::
    errors.flatMap (reportLines rules))

end FieldError

end Tighten
