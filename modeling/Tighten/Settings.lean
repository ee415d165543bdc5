import Tighten.Field.Report

/-
The settings of a campaign.

Settings are a record of nine fields, each with a default.  They can be read from named JSON values,
in any order and with names that are not settings passed over, and can be turned back into such
values.  A record that reads the batch sizes in the wrong order is refused, but only once every
field by itself is in order.

Overriding settings is reading them again after some of their values were replaced.  An override
that is null leaves the setting alone.
-/
namespace Tighten

/-- A number of things of which there is at least one. -/
abbrev Count := { n : Nat // 1 ≤ n }

/-- Warnings are errors, except about imports that a narrower visibility leaves unused. -/
def defaultRustflags : String := "-D warnings -A unused-imports"

/-- The message of a commit unless the settings have another. -/
def defaultCommitMessage : String := "retypist: narrow visibility"

/-- How long to wait before looking at a process again, in seconds. -/
def defaultPollInterval : { x : Double // x.isPositive = true } :=
  ⟨Double.ofDecimal false 5 (-2), by decide⟩

/-- The settings of a campaign. -/
structure Settings where
  /-- Further arguments of the test command. -/
  cargoArgs : List String := []
  /-- The compiler's flags for the test command. -/
  rustflags : String := defaultRustflags
  minBatch : Count := ⟨1, by decide⟩
  maxBatch : Count := ⟨15, by decide⟩
  /-- How long to wait before looking at a process again, in seconds. -/
  pollInterval : { x : Double // x.isPositive = true } := defaultPollInterval
  /-- Whether the code is formatted before it is committed. -/
  format : Bool := true
  commitMessage : String := defaultCommitMessage
  /-- How many iterations there are; without a limit the campaign goes on. -/
  maxIterations : Option Count := none
  /-- What the random choices start from. -/
  seed : Option Int := none
  minBatch_le_maxBatch : minBatch.val ≤ maxBatch.val := by decide

namespace Settings

/-- The settings when nothing is said. -/
def default : Settings := {}

/-! ### As named values -/

/-- A value that may be absent. -/
def optionalJson {α : Type} (value : α → Json) : Option α → Json
  | none => .null
  | some a => value a

/-- The settings as named values, in the order of declaration. -/
def members (s : Settings) : List (String × Json) :=
  [("cargo_args", .arr (s.cargoArgs.map .str)),
    ("rustflags", .str s.rustflags),
    ("min_batch", .int s.minBatch.val),
    ("max_batch", .int s.maxBatch.val),
    ("poll_interval", .double s.pollInterval.val),
    ("format", .bool s.format),
    ("commit_message", .str s.commitMessage),
    ("max_iterations", optionalJson (fun n => .int n.val) s.maxIterations),
    ("seed", optionalJson .int s.seed)]

/-- The names of the settings, in the order of declaration. -/
def names : List String :=
  default.members.map (·.1)

/-- The value under a name, read as a field of some kind, or a default if there is none. -/
def fieldOr {α : Type} (members : List (Json.Literal × Json)) (name : String) (otherwise : α)
    (kind : Json → FieldResult α) : Except (List FieldError) α :=
  match Json.find? members (.text name) with
  | none => .ok otherwise
  | some value => Field.named name value (kind value)

/-- The list of texts under a name. -/
def textsOr (members : List (Json.Literal × Json)) (name : String) (otherwise : List String) :
    Except (List FieldError) (List String) :=
  match Json.find? members (.text name) with
  | none => .ok otherwise
  | some value => Field.texts name value

/-- Why batch sizes are refused that are in the wrong order. -/
def batchRule (least most : Nat) : FieldFault :=
  .broken s!"min_batch ({least}) exceeds max_batch ({most})"

/-- The settings among named values, or everything that is wrong with them. -/
def read (members : List (Json.Literal × Json)) : Except (List FieldError) Settings :=
  match
    both (textsOr members "cargo_args" default.cargoArgs) <|
    both (fieldOr members "rustflags" default.rustflags Field.text) <|
    both (fieldOr members "min_batch" default.minBatch (Field.wholeFrom 1)) <|
    both (fieldOr members "max_batch" default.maxBatch (Field.wholeFrom 1)) <|
    both (fieldOr members "poll_interval" default.pollInterval Field.positive) <|
    both (fieldOr members "format" default.format Field.truth) <|
    both (fieldOr members "commit_message" default.commitMessage Field.text) <|
    both (fieldOr members "max_iterations" default.maxIterations
      (Field.optional (Field.wholeFrom 1)))
    (fieldOr members "seed" default.seed (Field.optional Field.whole)) with
  | .error es => .error es
  | .ok (cargoArgs, rustflags, minBatch, maxBatch, pollInterval, format, commitMessage,
      maxIterations, seed) =>
    if h : minBatch.val ≤ maxBatch.val then
      .ok ⟨cargoArgs, rustflags, minBatch, maxBatch, pollInterval, format, commitMessage,
        maxIterations, seed, h⟩
    else .error [⟨[], batchRule minBatch.val maxBatch.val, .obj members⟩]

/-- The kind of record that settings are, in reports. -/
def modelName : String := "RunConfig"

/-! ### Overriding -/

/-- Why settings could not be overridden. -/
inductive OverrideError where
  | unknown (name : String)
  | invalid (errors : List FieldError)

/-- What went wrong, in words. -/
def OverrideError.message (rules : FieldRules) : OverrideError → String
  | .unknown name => s!"Invalid config key: {name}"
  | .invalid errors => FieldError.report rules modelName errors

/-- The named values after some were replaced; the names must be known, also those of overrides
that leave their setting alone. -/
def replaceAll (members : List (String × Json)) :
    List (String × Json) → Except OverrideError (List (String × Json))
  | [] => .ok members
  | (name, value) :: rest =>
    if (Json.find? members name).isNone then .error (.unknown name)
    else
      match value with
      | .null => replaceAll members rest
      | value => replaceAll (Json.put members name value) rest

/-- The settings with every override that is not null in the place of the earlier value. -/
def override (s : Settings) (overrides : List (String × Json)) : Except OverrideError Settings :=
  match replaceAll s.members overrides with
  | .error e => .error e
  | .ok members => (read (Json.named members)).mapError .invalid

end Settings

end Tighten
