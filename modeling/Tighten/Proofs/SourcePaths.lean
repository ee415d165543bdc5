import Mathlib.Data.List.Lex
import Mathlib.Data.List.Nodup
import Mathlib.Data.List.TakeWhile
import Mathlib.Data.String.Basic
import Tighten.Proofs.Crate
import Tighten.Sampling

/-
Which files of a crate are its source files, and in which order.

A workspace is a list of entries, in whatever order the operating system names them, and each list
of names stands in it once.  What stands at given names does not depend on that order, so neither
does anything that is looked up.  The order shows only where all files are listed, and there they
are put in the order of their paths.

So the source files of a crate are determined by the files alone: those below `src`, at any depth,
whose name has the right suffix, each once.  What is found in them and what is drawn from them by
the same random choices is then the same, too.
-/
namespace Tighten

/-! ### The order of paths -/

namespace Path

/-- Names are compared one by one, each as a list of characters. -/
theorem namesBefore_iff : ∀ as bs : List String, namesBefore as bs = true ↔ as < bs := by
  intro as
  induction as with
  | nil =>
      intro bs
      cases bs with
      | nil => simp [namesBefore]
      | cons b bs => simp [namesBefore]
  | cons a as ih =>
      intro bs
      cases bs with
      | nil => simp [namesBefore]
      | cons b bs =>
          unfold namesBefore
          by_cases hab : a = b
          · simp [hab, ih bs]
          · simp [hab, List.cons_lt_cons_iff]

/-- What paths are ordered by. -/
def key (p : Path) : List String := p.anchor :: p.names

theorem key_injective {p q : Path} (h : p.key = q.key) : p = q := by
  obtain ⟨anchor, names⟩ := p
  obtain ⟨anchor', names'⟩ := q
  obtain ⟨rfl, rfl⟩ := List.cons.inj h
  rfl

theorem not_before_iff {p q : Path} : (!q.before p) = true ↔ p.key ≤ q.key := by
  unfold before
  rw [Bool.not_eq_true', Bool.eq_false_iff, ne_eq, namesBefore_iff, key, key, not_lt]

/-- Sorting puts paths in order. -/
theorem pairwise_sort (paths : List Path) :
    (paths.mergeSort fun a b => !b.before a).Pairwise fun p q => p.key ≤ q.key := by
  have hsorted : (paths.mergeSort fun a b => !b.before a).Pairwise
      fun p q => (!q.before p) = true := by
    refine List.pairwise_mergeSort ?_ ?_ paths
    · intro p q r hpq hqr
      exact not_before_iff.mpr (le_trans (not_before_iff.mp hpq) (not_before_iff.mp hqr))
    · intro p q
      rw [Bool.or_eq_true, not_before_iff, not_before_iff]
      exact le_total p.key q.key
  exact hsorted.imp fun h => not_before_iff.mp h

/-- In whatever order paths are given, sorting them gives one list. -/
theorem sort_eq_of_perm {paths paths' : List Path} (h : paths'.Perm paths) :
    (paths'.mergeSort fun a b => !b.before a) = paths.mergeSort fun a b => !b.before a := by
  have hperm := (List.mergeSort_perm paths' fun a b => !b.before a).trans
    (h.trans (List.mergeSort_perm paths fun a b => !b.before a).symm)
  refine hperm.eq_of_pairwise ?_ (pairwise_sort paths') (pairwise_sort paths)
  intro p q _ _ hpq hqp
  exact key_injective (le_antisymm hpq hqp)

/-! ### Suffixes -/

/-- The suffix begins at the last point, which is neither the first character nor the last. -/
theorem suffixOf_append {ext : List Char} (hext : '.' ∉ ext) (stem : List Char) :
    suffixOf (stem ++ '.' :: ext) = if stem ≠ [] ∧ ext ≠ [] then '.' :: ext else [] := by
  have htail : (stem ++ '.' :: ext).reverse.takeWhile (· ≠ '.') = ext.reverse := by
    have hpass : ∀ c ∈ ext.reverse, decide (c ≠ '.') = true := by
      intro c hc
      have hne : c ≠ '.' := by
        intro heq
        rw [heq] at hc
        exact hext (List.mem_reverse.mp hc)
      simpa using hne
    rw [List.reverse_append, List.reverse_cons, List.append_assoc,
      List.takeWhile_append_of_pos hpass]
    simp
  have hlength : ext.length + 1 < (stem ++ '.' :: ext).length ↔ stem ≠ [] := by
    rw [← List.length_pos_iff, List.length_append, List.length_cons]
    omega
  simp only [suffixOf, htail, List.length_reverse, List.reverse_reverse, hlength, ne_eq,
    List.reverse_eq_nil_iff]

theorem suffixOf_of_not_mem {name : List Char} (h : '.' ∉ name) : suffixOf name = [] := by
  have htail : name.reverse.takeWhile (· ≠ '.') = name.reverse := by
    refine List.takeWhile_eq_self_iff.mpr ?_
    intro c hc
    have hne : c ≠ '.' := by
      intro heq
      rw [heq] at hc
      exact h (List.mem_reverse.mp hc)
    simpa using hne
  unfold suffixOf
  rw [htail, if_neg]
  rw [List.length_reverse]
  omega

end Path

/-- A name with the suffix of source files, in letters of either case.  The suffix is the text from
the last point, which is neither the first character nor the last. -/
def RustName (name : List Char) : Prop :=
  ∃ stem ext, name = stem ++ '.' :: ext ∧ '.' ∉ ext ∧ stem ≠ [] ∧ ext ≠ [] ∧
    ext.map Char.toLower = ['r', 's']

theorem map_suffixOf_eq_iff (name : List Char) :
    (Path.suffixOf name).map Char.toLower = ['.', 'r', 's'] ↔ RustName name := by
  constructor
  · intro h
    by_cases hdot : '.' ∈ name
    · -- the last point is the first one from behind
      obtain ⟨front, back, hname, hfront⟩ := List.eq_append_cons_of_mem (List.mem_reverse.mpr hdot)
      have hsplit : name = back.reverse ++ '.' :: front.reverse := by
        rw [← List.reverse_reverse name, hname]
        simp
      have hext : '.' ∉ front.reverse := fun hmem => hfront (List.mem_reverse.mp hmem)
      rw [hsplit, Path.suffixOf_append hext] at h
      by_cases hends : back.reverse ≠ [] ∧ front.reverse ≠ []
      · rw [if_pos hends, List.map_cons] at h
        exact ⟨_, _, hsplit, hext, hends.1, hends.2, (List.cons.inj h).2⟩
      · rw [if_neg hends] at h
        cases h
    · rw [Path.suffixOf_of_not_mem hdot] at h
      cases h
  · intro h
    obtain ⟨stem, ext, rfl, hdot, hstem, hext, hletters⟩ := h
    rw [Path.suffixOf_append hdot, if_pos ⟨hstem, hext⟩, List.map_cons, hletters]
    rfl

theorem Crate.isSource_iff (folders : List String) (name : String) :
    Crate.isSource (Path.ofNames (folders ++ [name])) = true ↔ RustName name.toList := by
  have hlast : (Path.ofNames (folders ++ [name])).lastName = name := by
    simp [Path.lastName, Path.ofNames]
  unfold Crate.isSource Path.suffix
  rw [beq_iff_eq, hlast, ← String.toList_inj, String.toList_map, String.toList_ofList,
    ← map_suffixOf_eq_iff]
  rfl

/-! ### Entries in any order -/

namespace Workspace

variable {w w' : Workspace}

/-- No list of names occurs twice. -/
def Distinct (w : Workspace) : Prop :=
  (w.entries.map Prod.fst).Nodup

instance (w : Workspace) : Decidable w.Distinct :=
  inferInstanceAs (Decidable (List.Nodup _))

theorem lookup_eq_some_iff {entries : List (List String × Entry)}
    (h : (entries.map Prod.fst).Nodup) {names : List String} {e : Entry} :
    entries.lookup names = some e ↔ (names, e) ∈ entries := by
  induction entries with
  | nil => simp
  | cons first rest ih =>
      obtain ⟨n, old⟩ := first
      rw [List.map_cons, List.nodup_cons] at h
      rw [List.lookup_cons, List.mem_cons]
      by_cases hn : names = n
      · subst hn
        have hrest : (names, e) ∉ rest := by
          intro hmem
          exact h.1 (List.mem_map.mpr ⟨_, hmem, rfl⟩)
        simp [hrest, eq_comm]
      · have hne : (names == n) = false := beq_eq_false_iff_ne.mpr hn
        simp [hne, hn, ih h.2]

theorem entry?_eq_some_iff (h : w.Distinct) {names : List String} (hne : names ≠ []) {e : Entry} :
    w.entry? names = some e ↔ (names, e) ∈ w.entries := by
  cases names with
  | nil => exact absurd rfl hne
  | cons n rest => exact lookup_eq_some_iff h

/-- The same entries, in whatever order. -/
structure Reordered (w w' : Workspace) : Prop where
  base : w'.base = w.base
  entries : w'.entries.Perm w.entries

namespace Reordered

theorem entry? (h : Reordered w w') (hw : w.Distinct) (names : List String) :
    Workspace.entry? w' names = w.entry? names := by
  cases names with
  | nil => rfl
  | cons n rest =>
      have hw' : w'.Distinct := (h.entries.map Prod.fst).nodup_iff.mpr hw
      refine Option.ext fun e => ?_
      rw [entry?_eq_some_iff hw' (List.cons_ne_nil n rest),
        entry?_eq_some_iff hw (List.cons_ne_nil n rest), h.entries.mem_iff]

theorem locate (h : Reordered w w') (hw : w.Distinct) (p : Path) :
    Workspace.locate w' p = w.locate p :=
  (alike_of_files h.base fun names => Or.inl (h.entry? hw names)).locate p

theorem read (h : Reordered w w') (hw : w.Distinct) (p : Path) :
    Workspace.read w' p = w.read p := by
  simp only [Workspace.read, h.locate hw, h.entry? hw]

theorem filesBelow (h : Reordered w w') (place : List String) :
    (Workspace.filesBelow w' place).Perm (w.filesBelow place) :=
  ((h.entries.filterMap _).map Prod.fst).filter _

end Reordered

theorem mem_filesBelow (hw : w.Distinct) {place names : List String} :
    names ∈ w.filesBelow place ↔
      ∃ below bytes, below ≠ [] ∧ names = place ++ below ∧
        w.entry? names = some (.file bytes) := by
  have hfiles : ∀ bytes, (names, bytes) ∈ w.files ↔ (names, Entry.file bytes) ∈ w.entries := by
    intro bytes
    simp only [files, List.mem_filterMap]
    constructor
    · intro h
      obtain ⟨⟨n, e⟩, hmem, heq⟩ := h
      cases e with
      | directory => cases heq
      | file old =>
          obtain ⟨rfl, rfl⟩ := Prod.mk.inj (Option.some.inj heq)
          exact hmem
    · intro h
      exact ⟨_, h, rfl⟩
  simp only [filesBelow, List.mem_filter, List.mem_map, Bool.and_eq_true, bne_iff_ne, ne_eq,
    List.isPrefixOf_iff_prefix]
  constructor
  · intro h
    obtain ⟨⟨⟨n, bytes⟩, hmem, rfl⟩, ⟨below, rfl⟩, hne⟩ := h
    have hbelow : below ≠ [] := by
      intro hnil
      exact hne (by rw [hnil, List.append_nil])
    refine ⟨below, bytes, hbelow, rfl, ?_⟩
    exact (entry?_eq_some_iff hw (by simp [hbelow])).mpr ((hfiles bytes).mp hmem)
  · intro h
    obtain ⟨below, bytes, hbelow, rfl, hentry⟩ := h
    have hmem := (entry?_eq_some_iff hw (by simp [hbelow])).mp hentry
    exact ⟨⟨_, (hfiles bytes).mpr hmem, rfl⟩, ⟨below, rfl⟩, by simpa using hbelow⟩

theorem filesBelow_nodup (hw : w.Distinct) (place : List String) :
    (w.filesBelow place).Nodup := by
  refine List.Nodup.filter _ ?_
  have hsub : (w.files.map Prod.fst).Sublist (w.entries.map Prod.fst) := by
    unfold files
    induction w.entries with
    | nil => exact List.Sublist.refl _
    | cons first rest ih =>
        obtain ⟨n, e⟩ := first
        cases e with
        | directory => exact ih.cons _
        | file bytes => exact ih.cons_cons _
  exact hw.sublist hsub

end Workspace

/-! ### The source files -/

namespace Crate

variable {w w' : Workspace} {c : Crate} {place : List String}

theorem filePaths_eq (h : w.locate c.sources = .ok place) :
    c.filePaths w = ((w.filesBelow place).map fun n =>
      Path.ofNames (sourceDirectory :: n.drop place.length)).mergeSort fun a b => !b.before a := by
  simp only [filePaths, h]

/-- The source files are the files below `src`, at any depth, that have the suffix. -/
theorem mem_sourcePaths_iff (hw : w.Distinct) (h : w.locate c.sources = .ok place) (p : Path) :
    p ∈ c.sourcePaths w ↔ ∃ folders name bytes,
      p = Path.ofNames (sourceDirectory :: (folders ++ [name])) ∧
      w.entry? (place ++ (folders ++ [name])) = some (.file bytes) ∧ RustName name.toList := by
  rw [sourcePaths, filePaths_eq h, List.mem_filter, List.mem_mergeSort, List.mem_map]
  constructor
  · intro hp
    obtain ⟨⟨names, hnames, rfl⟩, hsource⟩ := hp
    obtain ⟨below, bytes, hbelow, rfl, hentry⟩ := (Workspace.mem_filesBelow hw).mp hnames
    rw [List.drop_left] at hsource ⊢
    have hsplit := List.dropLast_append_getLast hbelow
    rw [← hsplit] at hsource hentry ⊢
    exact ⟨_, _, bytes, rfl, hentry, (isSource_iff (sourceDirectory :: _) _).mp hsource⟩
  · intro hp
    obtain ⟨folders, name, bytes, rfl, hentry, hname⟩ := hp
    refine ⟨⟨place ++ (folders ++ [name]), ?_, by rw [List.drop_left]⟩, ?_⟩
    · exact (Workspace.mem_filesBelow hw).mpr ⟨_, bytes, by simp, rfl, hentry⟩
    · exact (isSource_iff (sourceDirectory :: folders) name).mpr hname

/-- The paths of files are in order, and no two are the same. -/
theorem pairwise_filePaths (hw : w.Distinct) (c : Crate) :
    (c.filePaths w).Pairwise fun p q => p.key < q.key := by
  cases hplace : w.locate c.sources with
  | error e =>
      simp only [filePaths, hplace]
      exact List.Pairwise.nil
  | ok place =>
      rw [filePaths_eq hplace]
      have hnodup : ((w.filesBelow place).map fun n =>
          Path.ofNames (sourceDirectory :: n.drop place.length)).Nodup := by
        refine List.Nodup.map_on ?_ (Workspace.filesBelow_nodup hw place)
        intro m hm n hn heq
        obtain ⟨below, -, -, rfl, -⟩ := (Workspace.mem_filesBelow hw).mp hm
        obtain ⟨below', -, -, rfl, -⟩ := (Workspace.mem_filesBelow hw).mp hn
        simpa [Path.ofNames] using heq
      have hsorted := Path.pairwise_sort ((w.filesBelow place).map fun n =>
        Path.ofNames (sourceDirectory :: n.drop place.length))
      have hdistinct := (List.mergeSort_perm ((w.filesBelow place).map fun n =>
        Path.ofNames (sourceDirectory :: n.drop place.length))
          fun a b => !b.before a).nodup_iff.mpr hnodup
      refine (hsorted.and hdistinct).imp ?_
      intro p q hpq
      exact lt_of_le_of_ne hpq.1 fun heq => hpq.2 (Path.key_injective heq)

/-- Source paths are relative, so their order is that of their names. -/
theorem pairwise_sourcePaths (hw : w.Distinct) (c : Crate) :
    (c.sourcePaths w).Pairwise fun p q => p.names < q.names := by
  refine ((pairwise_filePaths hw c).filter _).imp_of_mem ?_
  intro p q hp hq hlt
  obtain ⟨_, _, _, _, rfl⟩ := mem_sourcePaths hp
  obtain ⟨_, _, _, _, rfl⟩ := mem_sourcePaths hq
  unfold Path.key at hlt
  rcases List.cons_lt_cons_iff.mp hlt with hanchor | ⟨-, hnames⟩
  · exact absurd hanchor (lt_irrefl _)
  · exact hnames

/-! ### In any order of the entries -/

theorem filePaths_reordered (h : Workspace.Reordered w w') (hw : w.Distinct) (c : Crate) :
    c.filePaths w' = c.filePaths w := by
  cases hplace : w.locate c.sources with
  | error e => simp only [filePaths, h.locate hw, hplace]
  | ok place =>
      rw [filePaths_eq hplace, filePaths_eq ((h.locate hw c.sources).trans hplace)]
      exact Path.sort_eq_of_perm ((h.filesBelow place).map _)

theorem candidatesAt_reordered (h : Workspace.Reordered w w') (hw : w.Distinct) (c : Crate)
    (parser : Parser) : c.candidatesAt parser w' = c.candidatesAt parser w := by
  funext p
  simp only [candidatesAt, SourceFile.load, h.read hw]

theorem candidatesIn_reordered (h : Workspace.Reordered w w') (hw : w.Distinct) (c : Crate)
    (parser : Parser) (paths : List Path) :
    c.candidatesIn parser w' paths = c.candidatesIn parser w paths := by
  induction paths with
  | nil => rfl
  | cons p rest ih => simp only [candidatesIn, candidatesAt_reordered h hw, ih]

/-- **The source files do not depend on how directories are listed.**  They are the regular files
below `src`, at any depth, whose name has the suffix of source files, whatever the directories above
them are called.  Each is listed once, and they come in strictly increasing order of their names,
one after the other.  With the entries of the workspace in any other order, the same files are
listed, the same candidates are found in them, and the same random choices draw the same batch. -/
theorem sourcePaths_exact (hw : w.Distinct) (c : Crate) :
    (∀ place, w.locate c.sources = .ok place → ∀ p, p ∈ c.sourcePaths w ↔
      ∃ folders name bytes, p = Path.ofNames (sourceDirectory :: (folders ++ [name])) ∧
        w.entry? (place ++ (folders ++ [name])) = some (.file bytes) ∧ RustName name.toList) ∧
    (∀ e, w.locate c.sources = .error e → c.sourcePaths w = []) ∧
    (c.sourcePaths w).Pairwise (fun p q => p.names < q.names) ∧
    ∀ w', w'.base = w.base → w'.entries.Perm w.entries →
      c.sourcePaths w' = c.sourcePaths w ∧
      ∀ parser : Parser, c.candidates parser w' = c.candidates parser w ∧
        ∀ (ρ : Type) (source : RandomSource ρ) (least most : Int) (random : ρ),
          Sampling.sample parser source w' c least most random =
            Sampling.sample parser source w c least most random := by
  refine ⟨fun place hplace => mem_sourcePaths_iff hw hplace, ?_, pairwise_sourcePaths hw c, ?_⟩
  · intro e he
    simp only [sourcePaths, filePaths, he, List.filter_nil]
  · intro w' hbase hentries
    have h : Workspace.Reordered w w' := ⟨hbase, hentries⟩
    have hpaths : c.sourcePaths w' = c.sourcePaths w := by
      simp only [sourcePaths, filePaths_reordered h hw]
    have hskips : c.skipLog w' = c.skipLog w := by
      simp only [skipLog, filePaths_reordered h hw]
    refine ⟨hpaths, ?_⟩
    intro parser
    refine ⟨?_, ?_⟩
    · simp only [candidates, hpaths, hskips, candidatesIn_reordered h hw]
    · intro ρ source least most random
      simp only [Sampling.sample, Sampling.growth, Sampling.halted, hpaths, hskips,
        candidatesAt_reordered h hw]

/-- A crate with a directory that is called like a source file, and names that almost have the
suffix. -/
def oddFiles : Workspace where
  base := ⟨"/", ["odd"]⟩
  entries := [([manifestName], .file []), (["src"], .directory), (["src", "..rs"], .file []),
    (["src", ".rs"], .file []), (["src", "a"], .directory), (["src", "a", "b.rs"], .file []),
    (["src", "a-b.rs"], .file []), (["src", "a.rs"], .directory),
    (["src", "a.rs", "b.RS"], .file []), (["src", "x."], .file [])]

/-- Four of its files are source files, and are so with the entries the other way round. -/
theorem sourcePaths_exact_oddFiles :
    oddFiles.Distinct ∧
    (∃ p ∈ sourcePaths oddFiles ⟨oddFiles.base⟩, p = Path.ofNames ["src", "a.rs", "b.RS"]) ∧
    sourcePaths ⟨oddFiles.base, oddFiles.entries.reverse⟩ ⟨oddFiles.base⟩ =
      [Path.ofNames ["src", "..rs"], Path.ofNames ["src", "a", "b.rs"],
        Path.ofNames ["src", "a-b.rs"], Path.ofNames ["src", "a.rs", "b.RS"]] := by
  have hdistinct : oddFiles.Distinct := by decide
  obtain ⟨hmem, -, -, horder⟩ := sourcePaths_exact hdistinct ⟨oddFiles.base⟩
  refine ⟨hdistinct, ?_, ?_⟩
  · refine ⟨_, (hmem ["src"] (by decide +kernel) _).mpr ?_, rfl⟩
    exact ⟨["a.rs"], "b.RS", [], rfl, by decide +kernel,
      ['b'], ['R', 'S'], rfl, by decide, by decide, by decide, by decide⟩
  · have hplace : oddFiles.locate (sources ⟨oddFiles.base⟩) = .ok ["src"] := by decide +kernel
    rw [(horder ⟨oddFiles.base, oddFiles.entries.reverse⟩ rfl (List.reverse_perm _)).1,
      sourcePaths, filePaths_eq hplace, List.mergeSort_of_pairwise (by decide +kernel)]
    decide +kernel

end Crate

end Tighten
