import Tighten.Proofs.Saving

/-
Overriding settings.

Overrides replace named values and the record is read again, so every setting is either read from
its override or from its own named value, and the latter gives the setting back.  What follows is
said of one setting at a time: a `Slot` is a setting together with its name and the kind of field
that it is.

The rule about batch sizes is the only one that concerns two settings.  It is looked at once all
overrides are in place, and not in between.
-/
namespace Tighten

namespace Settings

/-! ### One setting at a time -/

/-- A setting: its name, the kind of field that it is read as, and where it is in the record. -/
structure Slot where
  name : String
  {Value : Type}
  {Fault : Type}
  kind : Json → Except Fault Value
  get : Settings → Value

/-- The settings, in the order of declaration. -/
def slots : List Slot :=
  [⟨"cargo_args", Field.texts "cargo_args", cargoArgs⟩,
    ⟨"rustflags", Field.text, rustflags⟩,
    ⟨"min_batch", Field.wholeFrom 1, minBatch⟩,
    ⟨"max_batch", Field.wholeFrom 1, maxBatch⟩,
    ⟨"poll_interval", Field.positive, pollInterval⟩,
    ⟨"format", Field.truth, format⟩,
    ⟨"commit_message", Field.text, commitMessage⟩,
    ⟨"max_iterations", Field.optional (Field.wholeFrom 1), maxIterations⟩,
    ⟨"seed", Field.optional Field.whole, seed⟩]

/-- The value of an override, unless it is null. -/
def nonNull : Json → Option Json
  | .null => none
  | value => some value

/-- The value that overrides give to a name: the last one that is not null. -/
def given (name : String) : List (String × Json) → Option Json
  | [] => none
  | (n, value) :: rest => (given name rest).or (if n = name then nonNull value else none)

/-- The named value of a setting once overrides are in place: that of the override, or its own. -/
def merged (s : Settings) (overrides : List (String × Json)) (name : String) : Json :=
  (given name overrides).getD ((Json.find? s.members name).getD .null)

/-- The names of overrides are those of settings. -/
def Known (overrides : List (String × Json)) : Prop :=
  ∀ x ∈ overrides, x.1 ∈ names

/-! ### Putting overrides in place -/

theorem find?_isSome_iff {members : List (String × Json)} {name : String} :
    (Json.find? members name).isSome = true ↔ name ∈ members.map Prod.fst := by
  induction members with
  | nil => simp [Json.find?]
  | cons m rest ih =>
      by_cases h : m.1 = name
      · simp [Json.find?, h]
      · simp only [Json.find?, h, if_false, ih, List.map_cons, List.mem_cons, Ne.symm h, false_or]

theorem map_fst_put {members : List (String × Json)} {name : String} (value : Json)
    (h : name ∈ members.map Prod.fst) :
    (Json.put members name value).map Prod.fst = members.map Prod.fst := by
  induction members with
  | nil => simp at h
  | cons m rest ih =>
      by_cases hm : m.1 = name
      · simp [Json.put, hm]
      · have hrest : name ∈ rest.map Prod.fst := by
          simpa [Ne.symm hm] using h
        simp [Json.put, hm, ih hrest]

theorem replaceAll_cons {members rest : List (String × Json)} {name : String} {value : Json}
    (h : name ∈ members.map Prod.fst) :
    replaceAll members ((name, value) :: rest) =
      match nonNull value with
      | none => replaceAll members rest
      | some value => replaceAll (Json.put members name value) rest := by
  have hfind : (Json.find? members name).isNone = false := by
    rw [Option.isNone_eq_false_iff]
    exact find?_isSome_iff.mpr h
  cases value <;> simp [replaceAll, nonNull, hfind]

/-- Overrides with known names are put in place, each in its own. -/
theorem replaceAll_ok {overrides : List (String × Json)} :
    ∀ members : List (String × Json), (∀ x ∈ overrides, x.1 ∈ members.map Prod.fst) →
      ∃ after, replaceAll members overrides = .ok after ∧
        ∀ name old, Json.find? members name = some old →
          Json.find? after name = some ((given name overrides).getD old) := by
  induction overrides with
  | nil =>
      intro members _
      exact ⟨members, rfl, fun name old hold => by simp [given, hold]⟩
  | cons x rest ih =>
      obtain ⟨n, value⟩ := x
      intro members hknown
      have hn : n ∈ members.map Prod.fst := hknown _ List.mem_cons_self
      have hrest : ∀ x ∈ rest, x.1 ∈ members.map Prod.fst :=
        fun x hx => hknown x (List.mem_cons_of_mem _ hx)
      rw [replaceAll_cons hn]
      cases hvalue : nonNull value with
      | none =>
          obtain ⟨after, hafter, hfind⟩ := ih members hrest
          refine ⟨after, hafter, fun name old hold => ?_⟩
          simp [given, hvalue, hfind name old hold]
      | some v =>
          rw [← map_fst_put v hn] at hrest
          obtain ⟨after, hafter, hfind⟩ := ih (Json.put members n v) hrest
          refine ⟨after, hafter, fun name old hold => ?_⟩
          by_cases hname : name = n
          · subst hname
            rw [hfind name v (Json.find?_put_self members name v)]
            cases hgiven : given name rest <;> simp [given, hvalue, hgiven]
          · rw [hfind name old (by rw [Json.find?_put_of_ne members v hname, hold])]
            simp [given, Ne.symm hname]

/-- The first name that is not known is reported, whatever its value. -/
theorem replaceAll_unknown {overrides : List (String × Json)} {x : String × Json} :
    ∀ members : List (String × Json),
      (overrides.find? fun x => x.1 ∉ members.map Prod.fst) = some x →
      replaceAll members overrides = .error (.unknown x.1) := by
  induction overrides with
  | nil =>
      intro members h
      cases h
  | cons y rest ih =>
      obtain ⟨n, value⟩ := y
      intro members h
      by_cases hn : n ∈ members.map Prod.fst
      · rw [List.find?_cons_of_neg (by simpa using hn)] at h
        rw [replaceAll_cons hn]
        cases nonNull value with
        | none => exact ih members h
        | some v =>
            refine ih (Json.put members n v) ?_
            rw [map_fst_put v hn]
            exact h
      · rw [List.find?_cons_of_pos (by simpa using hn)] at h
        obtain rfl := Option.some.inj h
        have hfind : (Json.find? members n).isNone = true := by
          rw [Option.isNone_iff_eq_none, ← Option.not_isSome_iff_eq_none, find?_isSome_iff]
          exact hn
        simp [replaceAll, hfind]

/-! ### Reading the settings again -/

theorem both_eq_ok {α β : Type} {a : Except (List FieldError) α} {b : Except (List FieldError) β}
    {x : α} {y : β} : both a b = .ok (x, y) ↔ a = .ok x ∧ b = .ok y := by
  cases a <;> cases b <;> simp [both]

theorem fieldOr_eq_ok {α : Type} {members : List (Json.Literal × Json)} {name : String}
    {value : Json} {otherwise a : α} {kind : Json → FieldResult α}
    (h : Json.find? members (.text name) = some value) :
    fieldOr members name otherwise kind = .ok a ↔ kind value = .ok a := by
  rw [fieldOr, h]
  cases hkind : kind value <;> simp [Field.named, hkind]

/-- Settings are read from named values by reading each of them. -/
theorem read_eq_ok {members : List (Json.Literal × Json)} {value : String → Json}
    (h : ∀ name ∈ names, Json.find? members (.text name) = some (value name)) {r : Settings} :
    read members = .ok r ↔ ∀ slot ∈ slots, slot.kind (value slot.name) = .ok (slot.get r) := by
  have hargs : textsOr members "cargo_args" default.cargoArgs =
      Field.texts "cargo_args" (value "cargo_args") := by
    rw [textsOr, h "cargo_args" (by decide)]
  have hfields : (∀ slot ∈ slots, slot.kind (value slot.name) = .ok (slot.get r)) ↔
      textsOr members "cargo_args" default.cargoArgs = .ok r.cargoArgs ∧
      fieldOr members "rustflags" default.rustflags Field.text = .ok r.rustflags ∧
      fieldOr members "min_batch" default.minBatch (Field.wholeFrom 1) = .ok r.minBatch ∧
      fieldOr members "max_batch" default.maxBatch (Field.wholeFrom 1) = .ok r.maxBatch ∧
      fieldOr members "poll_interval" default.pollInterval Field.positive = .ok r.pollInterval ∧
      fieldOr members "format" default.format Field.truth = .ok r.format ∧
      fieldOr members "commit_message" default.commitMessage Field.text = .ok r.commitMessage ∧
      fieldOr members "max_iterations" default.maxIterations
        (Field.optional (Field.wholeFrom 1)) = .ok r.maxIterations ∧
      fieldOr members "seed" default.seed (Field.optional Field.whole) = .ok r.seed := by
    rw [hargs, fieldOr_eq_ok (h "rustflags" (by decide)), fieldOr_eq_ok (h "min_batch" (by decide)),
      fieldOr_eq_ok (h "max_batch" (by decide)), fieldOr_eq_ok (h "poll_interval" (by decide)),
      fieldOr_eq_ok (h "format" (by decide)), fieldOr_eq_ok (h "commit_message" (by decide)),
      fieldOr_eq_ok (h "max_iterations" (by decide)), fieldOr_eq_ok (h "seed" (by decide))]
    simp only [slots, List.forall_mem_cons, List.not_mem_nil, false_imp_iff, implies_true, and_true]
  rw [hfields]
  unfold read
  constructor
  · intro hread
    split at hread
    · cases hread
    · next hboth =>
        simp only [both_eq_ok] at hboth
        split at hread
        · obtain rfl := Except.ok.inj hread
          exact hboth
        · cases hread
  · rintro ⟨h₁, h₂, h₃, h₄, h₅, h₆, h₇, h₈, h₉⟩
    rw [h₁, h₂, h₃, h₄, h₅, h₆, h₇, h₈, h₉]
    simp only [both, dif_pos r.minBatch_le_maxBatch]

theorem find?_members (s : Settings) {name : String} (h : name ∈ names) :
    Json.find? s.members name = some ((Json.find? s.members name).getD .null) := by
  have hname : name ∈ s.members.map Prod.fst := h
  obtain ⟨own, hown⟩ := Option.isSome_iff_exists.mp (find?_isSome_iff.mpr hname)
  rw [hown, Option.getD_some]

/-- Each setting is read from its own named value. -/
theorem kind_own (s : Settings) {slot : Slot} (h : slot ∈ slots) :
    slot.kind ((Json.find? s.members slot.name).getD .null) = .ok (slot.get s) := by
  have hfind : ∀ name ∈ names, Json.find? (Json.named s.members) (.text name) =
      some ((Json.find? s.members name).getD .null) := by
    intro name hname
    rw [Json.find?_named]
    exact find?_members s hname
  exact (read_eq_ok hfind).mp (read_members s) slot h

/-- Overriding is reading the named values that are in place then. -/
theorem override_of_known {s : Settings} {overrides : List (String × Json)}
    (h : Known overrides) : ∃ members, override s overrides = (read members).mapError .invalid ∧
      ∀ name ∈ names, Json.find? members (.text name) = some (merged s overrides name) := by
  obtain ⟨after, hafter, hfind⟩ := replaceAll_ok s.members h
  refine ⟨Json.named after, ?_, fun name hname => ?_⟩
  · rw [override, hafter]
  · rw [Json.find?_named]
    exact hfind name _ (find?_members s hname)

theorem override_eq_ok_of_known {s r : Settings} {overrides : List (String × Json)}
    (h : Known overrides) : override s overrides = .ok r ↔
      ∀ slot ∈ slots, slot.kind (merged s overrides slot.name) = .ok (slot.get r) := by
  obtain ⟨members, hoverride, hfind⟩ := override_of_known h
  rw [hoverride, mapError_eq_ok, read_eq_ok hfind]

theorem override_unknown (s : Settings) {overrides : List (String × Json)} {x : String × Json}
    (h : (overrides.find? fun x => x.1 ∉ names) = some x) :
    override s overrides = .error (.unknown x.1) := by
  rw [override, replaceAll_unknown s.members h]

theorem exists_unknown {overrides : List (String × Json)} {x : String × Json} (hx : x ∈ overrides)
    (h : x.1 ∉ names) : ∃ y, (overrides.find? fun x => x.1 ∉ names) = some y := by
  rw [← Option.isSome_iff_exists, List.find?_isSome]
  exact ⟨x, hx, decide_eq_true h⟩

/-- Where overriding gives anything, all names are known. -/
theorem known_of_override {s r : Settings} {overrides : List (String × Json)}
    (h : override s overrides = .ok r) : Known overrides := by
  intro x hx
  by_contra hname
  obtain ⟨y, hy⟩ := exists_unknown hx hname
  rw [override_unknown s hy] at h
  cases h

/-! ### What becomes of the settings -/

/-- What becomes of a setting: it is read from its override, and stays without one. -/
def Slot.Takes (slot : Slot) (overrides : List (String × Json)) (before after : slot.Value) :
    Prop :=
  match given slot.name overrides with
  | none => after = before
  | some value => slot.kind value = .ok after

theorem kind_merged_eq_ok (s : Settings) {slot : Slot} (h : slot ∈ slots)
    (overrides : List (String × Json)) (after : slot.Value) :
    slot.kind (merged s overrides slot.name) = .ok after ↔
      slot.Takes overrides (slot.get s) after := by
  unfold Slot.Takes merged
  cases given slot.name overrides with
  | none => rw [Option.getD_none, kind_own s h, Except.ok.injEq, eq_comm]
  | some value => rfl

/-- Every setting is read from its override, and stays without one. -/
def Overridden (s : Settings) (overrides : List (String × Json)) (r : Settings) : Prop :=
  ∀ slot ∈ slots, slot.Takes overrides (slot.get s) (slot.get r)

theorem override_eq_ok {s r : Settings} {overrides : List (String × Json)}
    (h : Known overrides) : override s overrides = .ok r ↔ Overridden s overrides r := by
  rw [override_eq_ok_of_known h]
  exact forall₂_congr fun slot hslot => kind_merged_eq_ok s hslot overrides _

namespace Overridden

variable {s r t : Settings} {o o₁ o₂ : List (String × Json)}

theorem again (h : Overridden s o r) : Overridden r o r := by
  intro slot hslot
  have hslot := h slot hslot
  unfold Slot.Takes at hslot ⊢
  cases hgiven : given slot.name o with
  | none => rfl
  | some value => simpa only [hgiven] using hslot

theorem refl (h : ∀ name, given name o = none) : Overridden s o s := by
  intro slot _
  simp [Slot.Takes, h]

/-- Later overrides come first, and earlier ones where those leave a setting alone. -/
theorem trans (h₁ : Overridden s o₁ r) (h₂ : Overridden r o₂ t)
    (ho : ∀ name, given name o = (given name o₂).or (given name o₁)) : Overridden s o t := by
  intro slot hslot
  have hfirst := h₁ slot hslot
  have hsecond := h₂ slot hslot
  unfold Slot.Takes at hfirst hsecond ⊢
  rw [ho]
  cases hlater : given slot.name o₂ with
  | some value =>
      simp only [hlater] at hsecond
      rw [Option.some_or]
      exact hsecond
  | none =>
      simp only [hlater] at hsecond
      rw [Option.none_or, hsecond]
      exact hfirst

end Overridden

theorem given_of_null {overrides : List (String × Json)} (h : ∀ x ∈ overrides, x.2 = .null)
    (name : String) : given name overrides = none := by
  induction overrides with
  | nil => rfl
  | cons x rest ih =>
      have hx : x.2 = .null := h x List.mem_cons_self
      have hrest := ih fun y hy => h y (List.mem_cons_of_mem x hy)
      simp [given, hrest, hx, nonNull]

/-- Of overrides that follow each other the later ones count. -/
theorem given_append (name : String) (o₁ o₂ : List (String × Json)) :
    given name (o₁ ++ o₂) = (given name o₂).or (given name o₁) := by
  induction o₁ with
  | nil => simp [given]
  | cons x rest ih => rw [List.cons_append, given, given, ih, Option.or_assoc]

/-! ### When overriding fails -/

/-- One of the values in place is refused. -/
def Faulty (s : Settings) (overrides : List (String × Json)) : Prop :=
  ∃ slot ∈ slots, ∃ fault, slot.kind (merged s overrides slot.name) = .error fault

/-- The batch sizes in place are in the wrong order. -/
def Reversed (s : Settings) (overrides : List (String × Json)) : Prop :=
  ∃ least most : Count, Field.wholeFrom 1 (merged s overrides "min_batch") = .ok least ∧
    Field.wholeFrom 1 (merged s overrides "max_batch") = .ok most ∧ most.val < least.val

theorem exists_override_iff {s : Settings} {overrides : List (String × Json)}
    (h : Known overrides) : (∃ r, override s overrides = .ok r) ↔
      ¬(Faulty s overrides ∨ Reversed s overrides) := by
  simp only [override_eq_ok_of_known h, not_or]
  constructor
  · rintro ⟨r, hr⟩
    refine ⟨?_, ?_⟩
    · rintro ⟨slot, hslot, fault, hfault⟩
      rw [hr slot hslot] at hfault
      cases hfault
    · rintro ⟨least, most, hleast, hmost, hlt⟩
      have hmin : Field.wholeFrom 1 (merged s overrides "min_batch") = .ok r.minBatch :=
        hr ⟨"min_batch", Field.wholeFrom 1, minBatch⟩ (by simp [slots])
      have hmax : Field.wholeFrom 1 (merged s overrides "max_batch") = .ok r.maxBatch :=
        hr ⟨"max_batch", Field.wholeFrom 1, maxBatch⟩ (by simp [slots])
      rw [hmin] at hleast
      rw [hmax] at hmost
      obtain rfl := Except.ok.inj hleast
      obtain rfl := Except.ok.inj hmost
      exact Nat.not_lt.mpr r.minBatch_le_maxBatch hlt
  · rintro ⟨hfaulty, hreversed⟩
    have hread : ∀ slot ∈ slots, ∃ a, slot.kind (merged s overrides slot.name) = .ok a := by
      intro slot hslot
      cases hkind : slot.kind (merged s overrides slot.name) with
      | ok a => exact ⟨a, rfl⟩
      | error fault => exact absurd ⟨slot, hslot, fault, hkind⟩ hfaulty
    simp only [slots, List.forall_mem_cons, List.not_mem_nil, false_imp_iff, implies_true,
      and_true] at hread ⊢
    obtain ⟨⟨cargoArgs, h₁⟩, ⟨rustflags, h₂⟩, ⟨minBatch, h₃⟩, ⟨maxBatch, h₄⟩, ⟨pollInterval, h₅⟩,
      ⟨format, h₆⟩, ⟨commitMessage, h₇⟩, ⟨maxIterations, h₈⟩, ⟨seed, h₉⟩⟩ := hread
    have hrange : minBatch.val ≤ maxBatch.val :=
      Nat.not_lt.mp fun hlt => hreversed ⟨minBatch, maxBatch, h₃, h₄, hlt⟩
    exact ⟨⟨cargoArgs, rustflags, minBatch, maxBatch, pollInterval, format, commitMessage,
      maxIterations, seed, hrange⟩, h₁, h₂, h₃, h₄, h₅, h₆, h₇, h₈, h₉⟩

theorem exists_invalid_iff {s : Settings} {overrides : List (String × Json)}
    (h : Known overrides) : (∃ errors, override s overrides = .error (.invalid errors)) ↔
      Faulty s overrides ∨ Reversed s overrides := by
  rw [← not_iff_not, ← exists_override_iff h]
  obtain ⟨members, hoverride, -⟩ := override_of_known (s := s) h
  rw [hoverride]
  cases read members with
  | ok r => simp [Except.mapError]
  | error errors => simp [Except.mapError]

/-- Overrides that are spelled in several ways. -/
def earlier : List (String × Json) :=
  [("min_batch", .str " +1_2.0"), ("seed", .null), ("format", .str "Off")]

/-- Overrides for what those have left alone, and for one of the batch sizes again. -/
def later : List (String × Json) :=
  [("min_batch", .double (.finite false 3 2)), ("max_batch", .int 12), ("format", .null),
    ("seed", .bool true)]

end Settings

end Tighten
