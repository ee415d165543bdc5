import Tighten.Proofs.Answers
import Tighten.Workspace

/-
Writing over files.

Replacing the bytes of a file that exists changes that file and nothing else: no name appears or
goes, and no directory becomes a file.  So every path leads to the same names as before, and what
was found out about the other files still holds.  `Alike` is that relation between two states of a
workspace.  A new file can change how a path fails to lead anywhere, but one that leads somewhere
still leads there, so a path that `Accepts` a write does so after other writes.

A path without steps to a parent leads to the names that it spells.  So two such paths below one
directory lead to the same file only if they are the same path.
-/
namespace Tighten

namespace Workspace

variable {w w' : Workspace} {names : List String} {p : Path}

/-! ### Entries -/

theorem lookup_putEntry_self (names : List String) (e : Entry)
    (entries : List (List String × Entry)) : (putEntry names e entries).lookup names = some e := by
  induction entries with
  | nil => simp [putEntry]
  | cons first rest ih =>
      obtain ⟨n, old⟩ := first
      by_cases h : n = names
      · simp [putEntry, h]
      · have hne : (names == n) = false := beq_eq_false_iff_ne.mpr (Ne.symm h)
        simp [putEntry, h, List.lookup_cons, hne, ih]

theorem lookup_putEntry_of_ne {other : List String} (h : other ≠ names) (e : Entry)
    (entries : List (List String × Entry)) :
    (putEntry names e entries).lookup other = entries.lookup other := by
  have hne : (other == names) = false := beq_eq_false_iff_ne.mpr h
  induction entries with
  | nil => simp [putEntry, List.lookup_cons, hne]
  | cons first rest ih =>
      obtain ⟨n, old⟩ := first
      by_cases hn : n = names
      · simp [putEntry, hn, List.lookup_cons, hne]
      · simp only [putEntry, if_neg hn, List.lookup_cons, ih]

theorem entry?_put_self (h : names ≠ []) (e : Entry) :
    Workspace.entry? (w.put names e) names = some e := by
  cases names with
  | nil => exact absurd rfl h
  | cons n rest => exact lookup_putEntry_self _ e w.entries

theorem entry?_put_of_ne {other : List String} (h : other ≠ names) (e : Entry) :
    Workspace.entry? (w.put names e) other = w.entry? other := by
  cases other with
  | nil => rfl
  | cons n rest => exact lookup_putEntry_of_ne h e w.entries

/-! ### Where paths lead -/

/-- The same names stand for files, and the same for directories. -/
structure Alike (w w' : Workspace) : Prop where
  base : w'.base = w.base
  directory : ∀ names, w'.entry? names = some .directory ↔ w.entry? names = some .directory
  missing : ∀ names, w'.entry? names = none ↔ w.entry? names = none

/-- Files in the place of files make no difference. -/
theorem alike_of_files (hbase : w'.base = w.base)
    (h : ∀ names, w'.entry? names = w.entry? names ∨
      (∃ new, w'.entry? names = some (.file new)) ∧ ∃ old, w.entry? names = some (.file old)) :
    Alike w w' := by
  refine ⟨hbase, ?_, ?_⟩
  · intro names
    obtain hsame | ⟨⟨new, hnew⟩, old, hold⟩ := h names
    · rw [hsame]
    · simp [hnew, hold]
  · intro names
    obtain hsame | ⟨⟨new, hnew⟩, old, hold⟩ := h names
    · rw [hsame]
    · simp [hnew, hold]

theorem Alike.descend (h : Alike w w') (names : List String) :
    ∀ place, w'.descend place names = w.descend place names := by
  induction names with
  | nil => intro place; rfl
  | cons n rest ih =>
      intro place
      have hdirectory := h.directory place
      have hmissing := h.missing place
      simp only [Workspace.descend, ih]
      -- the step asks only whether the place is missing, a file or a directory
      cases hw : w.entry? place with
      | none => rw [hmissing.mpr hw]
      | some e =>
          cases e with
          | directory => rw [hdirectory.mpr hw]
          | file bytes =>
              cases hw' : w'.entry? place with
              | none => simp [hmissing.mp hw'] at hw
              | some e' =>
                  cases e' with
                  | directory => simp [hdirectory.mp hw'] at hw
                  | file bytes' => rfl

theorem Alike.locate (h : Alike w w') (p : Path) : w'.locate p = w.locate p := by
  simp only [Workspace.locate, h.base, h.descend]

/-- A path at which a file stands. -/
def Holds (w : Workspace) (p : Path) (names : List String) (bytes : List UInt8) : Prop :=
  w.locate p = .ok names ∧ w.entry? names = some (.file bytes)

theorem read_eq_ok {bytes : List UInt8} :
    w.read p = .ok bytes ↔ ∃ names, w.Holds p names bytes := by
  unfold read Holds
  cases hlocate : w.locate p with
  | error e => simp
  | ok names =>
      cases hentry : w.entry? names with
      | none => simp [hentry]
      | some e => cases e <;> simp [hentry]

/-! ### Files that may be new -/

/-- Directories lead on, and a path that leads anywhere goes through nothing else. -/
theorem descend_congr (h : ∀ names, w'.entry? names = some .directory ↔
    w.entry? names = some .directory) (steps : List String) :
    ∀ place found, w.descend place steps = .ok found → w'.descend place steps = .ok found := by
  induction steps with
  | nil =>
      intro place found hfound
      exact hfound
  | cons n rest ih =>
      intro place found hfound
      unfold descend at hfound ⊢
      cases hentry : w.entry? place with
      | none =>
          rw [hentry] at hfound
          cases hfound
      | some e =>
          rw [hentry] at hfound
          cases e with
          | file bytes => cases hfound
          | directory =>
              rw [(h place).mpr hentry]
              dsimp only at hfound ⊢
              split
              · next hparent =>
                  rw [if_pos hparent] at hfound
                  cases place with
                  | nil => cases hfound
                  | cons m place => exact ih _ found hfound
              · next hparent =>
                  rw [if_neg hparent] at hfound
                  exact ih _ found hfound

theorem write_eq_ok {p : Path} {bytes : List UInt8} (h : w.write p bytes = .ok w') :
    ∃ names, w.locate p = .ok names ∧ w.entry? names ≠ some .directory ∧
      w' = w.put names (.file bytes) := by
  unfold write at h
  cases hlocate : w.locate p with
  | error e => simp [hlocate] at h
  | ok names =>
      refine ⟨names, rfl, ?_⟩
      cases hentry : w.entry? names with
      | none =>
          simp only [hlocate, hentry] at h
          exact ⟨by simp, (Except.ok.inj h).symm⟩
      | some e =>
          cases e with
          | directory => simp [hlocate, hentry] at h
          | file old =>
              simp only [hlocate, hentry] at h
              exact ⟨by simp, (Except.ok.inj h).symm⟩

/-- A path leads where it led as long as the directories are the same. -/
theorem locate_congr (hbase : w'.base = w.base) (h : ∀ names, w'.entry? names = some .directory ↔
    w.entry? names = some .directory) (hp : w.locate p = .ok names) : w'.locate p = .ok names := by
  unfold locate at hp ⊢
  rw [hbase]
  split at hp
  · next hbelow =>
      rw [if_pos hbelow]
      exact descend_congr h _ _ _ hp
  · split at hp <;> cases hp

/-- What is written is there, and everywhere else there is what was. -/
theorem entry?_of_write {bytes : List UInt8} (h : w.write p bytes = .ok w') :
    ∃ place, w.locate p = .ok place ∧ w'.entry? place = some (.file bytes) ∧
      w.entry? place ≠ some .directory ∧
      ∀ names, names ≠ place → w'.entry? names = w.entry? names := by
  obtain ⟨place, hplace, hentry, rfl⟩ := write_eq_ok h
  have hne : place ≠ [] := by
    rintro rfl
    exact hentry rfl
  exact ⟨place, hplace, entry?_put_self hne _, hentry, fun _ hnames => entry?_put_of_ne hnames _⟩

theorem directory_of_write {bytes : List UInt8} (h : w.write p bytes = .ok w')
    (names : List String) :
    w'.entry? names = some .directory ↔ w.entry? names = some .directory := by
  obtain ⟨place, -, hself, hentry, hothers⟩ := entry?_of_write h
  by_cases hnames : names = place
  · rw [hnames, hself]
    simp [hentry]
  · rw [hothers names hnames]

/-- Writing a file does not change where any path leads. -/
theorem locate_of_write {q : Path} {bytes : List UInt8} (h : w.write p bytes = .ok w') :
    w'.locate q = .ok names ↔ w.locate q = .ok names := by
  have hbase : w'.base = w.base := by
    obtain ⟨place, -, -, rfl⟩ := write_eq_ok h
    rfl
  have hdirectory := directory_of_write h
  exact ⟨locate_congr hbase.symm fun names => (hdirectory names).symm,
    locate_congr hbase hdirectory⟩

/-- Files stay files, paths lead where they led, and the file that is written is there. -/
theorem write_keeps_files {p : Path} {bytes : List UInt8} (h : w.write p bytes = .ok w') :
    (∀ q names, w.locate q = .ok names → w'.locate q = .ok names) ∧
    (∀ names, (w.bytes? names).isSome = true → (w'.bytes? names).isSome = true) ∧
    ∀ names, w.locate p = .ok names → (w'.bytes? names).isSome = true := by
  obtain ⟨place, hplace, hself, -, hothers⟩ := entry?_of_write h
  refine ⟨fun q names => (locate_of_write h).mpr, ?_, ?_⟩
  · intro names hfile
    by_cases hnames : names = place
    · rw [bytes?, hnames, hself]
      rfl
    · rw [bytes?, hothers names hnames]
      exact hfile
  · intro names hnames
    rw [hplace] at hnames
    obtain rfl := Except.ok.inj hnames
    rw [bytes?, hself]
    rfl

/-- A path at which a file can be written, whether or not one stands there. -/
def Accepts (w : Workspace) (p : Path) (names : List String) : Prop :=
  w.locate p = .ok names ∧ w.entry? names ≠ some .directory

theorem Holds.accepts {bytes : List UInt8} (h : w.Holds p names bytes) : w.Accepts p names := by
  refine ⟨h.1, ?_⟩
  rw [h.2]
  simp

/-- A file is written in its place. -/
theorem Accepts.write (h : w.Accepts p names) (bytes : List UInt8) :
    w.write p bytes = .ok (w.put names (.file bytes)) := by
  simp only [Workspace.write, h.1]
  cases hentry : w.entry? names with
  | none => rfl
  | some e =>
      cases e with
      | directory => exact absurd hentry h.2
      | file old => rfl

/-- The file that is written is there. -/
theorem Accepts.holds_put (h : w.Accepts p names) (bytes : List UInt8) :
    (w.put names (.file bytes)).Holds p names bytes := by
  refine ⟨(write_keeps_files (h.write bytes)).1 p names h.1, entry?_put_self ?_ _⟩
  intro hnil
  apply h.2
  rw [hnil]
  rfl

/-- After a file is written, others can be written as before. -/
theorem Accepts.put {q : Path} {other : List String} (h : w.Accepts q other)
    (hp : w.Accepts p names) (bytes : List UInt8) :
    (w.put names (.file bytes)).Accepts q other := by
  refine ⟨(write_keeps_files (hp.write bytes)).1 q other h.1, ?_⟩
  by_cases heq : other = names
  · rw [heq, (hp.holds_put bytes).2]
    simp
  · rw [entry?_put_of_ne heq]
    exact h.2

/-! ### Steps down -/

/-- No entry has a name that would be a step to a parent. -/
def Plain (w : Workspace) : Prop :=
  ∀ x ∈ w.entries, ".." ∉ x.1

instance (w : Workspace) : Decidable w.Plain :=
  inferInstanceAs (Decidable (∀ x ∈ w.entries, ".." ∉ x.1))

theorem Plain.filesBelow (hw : w.Plain) {place : List String} (h : names ∈ w.filesBelow place) :
    ".." ∉ names := by
  obtain ⟨⟨_, bytes⟩, hfile, rfl⟩ := List.mem_map.mp (List.mem_filter.mp h).1
  obtain ⟨⟨n, e⟩, hentry, hmatch⟩ := List.mem_filterMap.mp hfile
  cases e with
  | directory => cases hmatch
  | file _ =>
      obtain ⟨rfl, -⟩ := Prod.mk.inj (Option.some.inj hmatch)
      exact hw _ hentry

theorem descend_append (xs ys : List String) :
    ∀ place, w.descend place (xs ++ ys) = w.descend place xs >>= fun next => w.descend next ys := by
  induction xs with
  | nil => intro place; rfl
  | cons n rest ih =>
      intro place
      simp only [List.cons_append, descend, ih]
      cases w.entry? place with
      | none => rfl
      | some e =>
          cases e with
          | file bytes => rfl
          | directory =>
              dsimp only
              split
              · cases place <;> rfl
              · rfl

/-- Without steps to a parent the names are those that were gone down. -/
theorem descend_eq_append {names : List String} (h : ".." ∉ names) :
    ∀ place found, w.descend place names = .ok found → found = place ++ names := by
  induction names with
  | nil =>
      intro place found hfound
      rw [List.append_nil]
      exact (Except.ok.inj hfound).symm
  | cons n rest ih =>
      intro place found hfound
      rw [List.mem_cons, not_or] at h
      unfold descend at hfound
      split at hfound
      · cases hfound
      · cases hfound
      · rw [if_neg (Ne.symm h.1)] at hfound
        rw [ih h.2 _ found hfound, List.append_assoc, List.singleton_append]

/-- A path below another leads to below where that one leads. -/
theorem locate_below {root : Path} {place found below : List String}
    (hroot : w.locate root = .ok place) (hbelow : ".." ∉ below)
    (h : w.locate ⟨root.anchor, root.names ++ below⟩ = .ok found) : found = place ++ below := by
  unfold locate at hroot h
  by_cases hin : root.anchor = w.base.anchor ∧ w.base.names.isPrefixOf root.names = true
  · obtain ⟨hanchor, hbase⟩ := hin
    obtain ⟨rest, hrest⟩ := List.isPrefixOf_iff_prefix.mp hbase
    have hlonger : w.base.names.isPrefixOf (root.names ++ below) = true :=
      List.isPrefixOf_iff_prefix.mpr ⟨rest ++ below, by rw [← List.append_assoc, hrest]⟩
    rw [if_pos ⟨hanchor, hbase⟩] at hroot
    rw [if_pos ⟨hanchor, hlonger⟩] at h
    have hlen : w.base.names.length ≤ root.names.length := by
      rw [← hrest, List.length_append]
      omega
    rw [List.drop_append_of_le_length hlen, descend_append, hroot] at h
    exact descend_eq_append hbelow place found h
  · rw [if_neg hin] at hroot
    split at hroot <;> cases hroot

end Workspace

end Tighten
