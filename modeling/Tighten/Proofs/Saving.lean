import Tighten.Proofs.Loading
import Tighten.Proofs.PlainText
import Tighten.Proofs.Utf8

/-
Settings that were saved are loaded again.

Every kind of field takes the value that its setting is written as for that setting, so settings are
the record that is read from their own named values.  Those make up a document that is read as it
was written, and the text of it goes through the bytes of a file unchanged: it is plain text, in
which no line ends with anything but a newline.  Settings are a list inside an object at most, and
for that there is always room.
-/
namespace Tighten

theorem Json.Plain.universalNewlines {text : List Char} (h : Json.Plain text) :
    Text.universalNewlines text = text := by
  apply Text.universalNewlines_of_notMem
  intro hmem
  exact absurd (h '\r' hmem) (by decide)

namespace Field

theorem textItems_str (name : String) (index : Nat) (texts : List String) :
    textItems name index (texts.map .str) = .ok texts := by
  induction texts generalizing index with
  | nil => rfl
  | cons text texts ih =>
      rw [List.map_cons, textItems, ih]
      rfl

theorem wholeFrom_int {least : Nat} (n : { n : Nat // least ≤ n }) :
    wholeFrom least (.int n.val) = .ok n := by
  have hle := n.property
  unfold wholeFrom whole
  simp only [dif_neg (show ¬(n.val : Int) < least by omega), Int.toNat_natCast]

theorem positive_double (x : { x : Double // x.isPositive = true }) :
    positive (.double x.val) = .ok x := by
  unfold positive
  simp only [dif_pos x.property]

theorem optional_optionalJson {α : Type} {kind : Json → FieldResult α} (value : α → Json)
    (h : ∀ a, value a ≠ .null ∧ kind (value a) = .ok a) (a : Option α) :
    optional kind (Settings.optionalJson value a) = .ok a := by
  cases a with
  | none => rfl
  | some a =>
      obtain ⟨hnull, hkind⟩ := h a
      unfold Settings.optionalJson optional
      split
      · next heq => exact absurd heq hnull
      · rw [hkind]
        rfl

end Field

namespace Settings

theorem fieldOr_ok {α : Type} {members : List (String × Json)} {name : String} {value : Json}
    {otherwise a : α} {kind : Json → FieldResult α} (hfind : Json.find? members name = some value)
    (h : kind value = .ok a) : fieldOr (Json.named members) name otherwise kind = .ok a := by
  unfold fieldOr
  rw [Json.find?_named, hfind]
  simp only [h, Field.named]

/-- Settings are read from their own named values. -/
theorem read_members (s : Settings) : read (Json.named s.members) = .ok s := by
  have hargs : textsOr (Json.named s.members) "cargo_args" default.cargoArgs = .ok s.cargoArgs :=
    Field.textItems_str "cargo_args" 0 s.cargoArgs
  have hflags : fieldOr (Json.named s.members) "rustflags" default.rustflags Field.text =
      .ok s.rustflags := fieldOr_ok rfl rfl
  have hmin : fieldOr (Json.named s.members) "min_batch" default.minBatch (Field.wholeFrom 1) =
      .ok s.minBatch := fieldOr_ok rfl (Field.wholeFrom_int s.minBatch)
  have hmax : fieldOr (Json.named s.members) "max_batch" default.maxBatch (Field.wholeFrom 1) =
      .ok s.maxBatch := fieldOr_ok rfl (Field.wholeFrom_int s.maxBatch)
  have hpoll : fieldOr (Json.named s.members) "poll_interval" default.pollInterval Field.positive =
      .ok s.pollInterval := fieldOr_ok rfl (Field.positive_double s.pollInterval)
  have hformat : fieldOr (Json.named s.members) "format" default.format Field.truth =
      .ok s.format := fieldOr_ok rfl rfl
  have hmessage : fieldOr (Json.named s.members) "commit_message" default.commitMessage
      Field.text = .ok s.commitMessage := fieldOr_ok rfl rfl
  have hiterations : fieldOr (Json.named s.members) "max_iterations" default.maxIterations
      (Field.optional (Field.wholeFrom 1)) = .ok s.maxIterations :=
    fieldOr_ok rfl (Field.optional_optionalJson (fun n => .int n.val)
      (fun n => ⟨by simp, Field.wholeFrom_int n⟩) s.maxIterations)
  have hseed : fieldOr (Json.named s.members) "seed" default.seed (Field.optional Field.whole) =
      .ok s.seed :=
    fieldOr_ok rfl (Field.optional_optionalJson .int (fun n => ⟨by simp, rfl⟩) s.seed)
  unfold read
  rw [hargs, hflags, hmin, hmax, hpoll, hformat, hmessage, hiterations, hseed]
  simp only [both, dif_pos s.minBatch_le_maxBatch]

/-- The numbers among the settings are of the kind that a file can hold: a double of the format, and
whole numbers that are not too long to be converted.  The least batch is no larger than the
greatest, so nothing is asked of it. -/
structure Storable (s : Settings) : Prop where
  maxBatch : s.maxBatch.val < 10 ^ Json.maxDigits
  pollInterval : s.pollInterval.val.Proper
  maxIterations : ∀ n ∈ s.maxIterations, n.val < 10 ^ Json.maxDigits
  seed : ∀ n ∈ s.seed, n.natAbs < 10 ^ Json.maxDigits

theorem writable_optionalJson {α : Type} {value : α → Json} {a : Option α} {room : Nat}
    (h : ∀ n ∈ a, Json.Writable room (value n)) : Json.Writable room (optionalJson value a) := by
  cases a with
  | none => exact .null
  | some n => exact h n rfl

/-- There is room for settings: they are a list inside an object. -/
theorem Storable.writable {s : Settings} (h : s.Storable) (room : Nesting) :
    Json.Writable room.val (.obj (Json.named s.members)) := by
  obtain ⟨inner, hroom⟩ := Nat.exists_eq_add_of_le' room.property
  have hargs : Json.Writable (inner + 1) (.arr (s.cargoArgs.map .str)) := by
    apply Json.Writable.arr
    intro item hitem
    obtain ⟨arg, -, rfl⟩ := List.mem_map.mp hitem
    exact .str arg
  have hmin : s.minBatch.val < 10 ^ Json.maxDigits :=
    Nat.lt_of_le_of_lt s.minBatch_le_maxBatch h.maxBatch
  have hiterations :
      Json.Writable (inner + 1) (optionalJson (fun n => .int n.val) s.maxIterations) :=
    writable_optionalJson fun n hn => .int (h.maxIterations n hn)
  have hseed : Json.Writable (inner + 1) (optionalJson .int s.seed) :=
    writable_optionalJson fun n hn => .int (h.seed n hn)
  rw [hroom]
  apply Json.Writable.obj
  · exact (show names.Nodup by decide)
  · unfold members
    simp only [List.forall_mem_cons, List.not_mem_nil, false_imp_iff, implies_true, and_true]
    exact ⟨hargs, .str _, .int hmin, .int h.maxBatch, .double h.pollInterval, .bool _, .str _,
      hiterations, hseed⟩

/-- The bytes of the text for some settings hold these settings. -/
theorem Storable.ofBytes_text {s : Settings} (h : s.Storable) (room : Nesting) (path : Path) :
    ofBytes room path (Text.Utf8.encode s.text.toList) = .ok s := by
  have hplain : Json.Plain s.text.toList := by
    unfold text Json.render
    rw [String.toList_ofList]
    exact Json.plain_write 0 _
  rw [ofBytes_of_decode (Text.Utf8.decode_encode s.text.toList), hplain.universalNewlines,
    String.ofList_toList, text, Json.parse_render (h.writable room)]
  show ((read (Json.named s.members)).mapError Fault.invalid).mapError _ = _
  rw [read_members]
  rfl

/-- A file that was written is read from then on. -/
theorem read_of_write {w w' : Workspace} {p : Path} {bytes : List UInt8}
    (h : w.write p bytes = .ok w') : w'.read p = .ok bytes := by
  obtain ⟨names, hlocate, hentry, rfl⟩ := Workspace.write_eq_ok h
  exact Workspace.read_eq_ok.mpr ⟨names, Workspace.Accepts.holds_put ⟨hlocate, hentry⟩ bytes⟩

theorem save_eq_ok {s : Settings} {w w' : Workspace} {root : Path} :
    save Workspace.writer root s w = (.ok (), w') ↔
      w.write (filePath root) (Text.Utf8.encode s.text.toList) = .ok w' := by
  unfold save Workspace.writer
  cases hwrite : w.write (filePath root) (Text.Utf8.encode s.text.toList) with
  | ok after => simp
  | error e => simp

/-- Settings that were saved are what is loaded, with the least room for brackets as with any, and
wherever the file can be written they are saved. -/
theorem load_save {s : Settings} (hs : s.Storable) (room : Nesting) (w : Workspace)
    (root : Path) :
    (∀ w', save Workspace.writer root s w = (.ok (), w') → load room w' root = .ok s) ∧
      ∀ names, w.Accepts (filePath root) names →
        ∃ w', save Workspace.writer root s w = (.ok (), w') := by
  constructor
  · intro w' hsave
    rw [load_of_read (read_of_write (save_eq_ok.mp hsave))]
    exact hs.ofBytes_text room (filePath root)
  · intro names haccepts
    exact ⟨_, save_eq_ok.mpr (haccepts.write _)⟩

/-- Settings with texts that have to be spelled out, the smallest wait there is, and a negative
seed. -/
def oddSettings : Settings where
  cargoArgs := ["--config=\"a\\b\"", "", "\x07\t\x7f", "é\u2028𝄞"]
  rustflags := "\r\n"
  minBatch := ⟨3, by decide⟩
  maxBatch := ⟨3, by decide⟩
  pollInterval := ⟨.finite false 1 Double.minExponent, rfl⟩
  format := false
  commitMessage := "null"
  maxIterations := some ⟨1, Nat.one_pos⟩
  seed := some (-7)

theorem load_save_oddSettings :
    oddSettings.Storable ∧ ∃ w',
      save Workspace.writer Program.plainRoot oddSettings (Program.plainCrate (.file [])) =
        (.ok (), w') ∧
      load ⟨2, Nat.le_refl 2⟩ w' Program.plainRoot = .ok oddSettings := by
  have hshort : ∀ n, n < 10 → n < 10 ^ Json.maxDigits := by
    intro n hn
    exact Nat.lt_of_lt_of_le hn (Nat.le_self_pow (by decide) 10)
  have hs : oddSettings.Storable := by
    refine ⟨hshort 3 (by decide), Or.inl ⟨by decide, by decide, by decide, by decide, Or.inl rfl⟩,
      ?_, ?_⟩
    · intro n hn
      obtain rfl := Option.some.inj hn
      exact hshort 1 (by decide)
    · intro n hn
      obtain rfl := Option.some.inj hn
      exact hshort 7 (by decide)
  obtain ⟨hload, hsave⟩ := load_save hs ⟨2, Nat.le_refl 2⟩
    (Program.plainCrate (.file [])) Program.plainRoot
  obtain ⟨w', hw'⟩ := hsave [fileName] ⟨by decide +kernel, by decide +kernel⟩
  exact ⟨hs, w', hw', hload w' hw'⟩

end Settings

end Tighten
