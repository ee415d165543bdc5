import Tighten.Crate
import Tighten.Proofs.Answers
import Tighten.Proofs.Utf8
import Tighten.Proofs.Workspace

/-
Where the candidates of a crate come from.

A candidate of a file carries the file as it was loaded, and its edit is one of those in the file's
text.  A file that is passed over has none.  So the candidates of the crate are those of its files,
and each knows which file it belongs to.

Different paths of the crate lead to different files, and the bytes of a file's text are the bytes
that were read, with Unix line endings.
-/
namespace Tighten

theorem SourceFile.load_eq_ok {w : Workspace} {root relative : Path} {file : SourceFile}
    (h : SourceFile.load w root relative = .ok file) :
    ∃ bytes, w.read (root.join relative) = .ok bytes ∧ codeOf bytes = .ok file.code ∧
      file.path = root.join relative ∧ file.relative = relative := by
  simp only [SourceFile.load, bind_eq_ok, mapError_eq_ok, pure_eq_ok] at h
  obtain ⟨bytes, hread, code, hcode, rfl⟩ := h
  exact ⟨bytes, hread, hcode, rfl, rfl⟩

/-- The bytes of the text that was read are those of the file, with Unix line endings. -/
theorem encode_codeOf {bytes : List UInt8} {code : String} (h : codeOf bytes = .ok code) :
    Text.Utf8.encode code.toList = Text.Utf8.unixBytes bytes := by
  simp only [codeOf, map_eq_ok] at h
  obtain ⟨text, htext, rfl⟩ := h
  rw [String.toList_ofList, ← Text.Utf8.unixBytes_encode, Text.Utf8.encode_of_decode htext]

namespace Crate

variable {parser : Parser} {w : Workspace} {c : Crate} {p : Path} {m : Candidate}
  {found : List Candidate} {log : List LogLine}

/-- A candidate of a file is an edit in the text that was loaded. -/
theorem candidatesAt_mem (h : c.candidatesAt parser w p = .ok (found, log)) (hm : m ∈ found) :
    SourceFile.load w c.root p = .ok m.file ∧
      ∃ es, edits parser m.file.code = .ok es ∧ ⟨m.narrowing, m.span⟩ ∈ es := by
  unfold candidatesAt at h
  cases hload : SourceFile.load w c.root p with
  | error e =>
      simp only [hload, Except.ok.injEq, Prod.mk.injEq] at h
      rw [← h.1] at hm
      exact absurd hm List.not_mem_nil
  | ok file =>
      simp only [hload, SourceFile.candidates] at h
      cases hedits : edits parser file.code with
      | error e =>
          cases e with
          | syntactic e =>
              simp only [hedits, Except.map, Except.ok.injEq, Prod.mk.injEq] at h
              rw [← h.1] at hm
              exact absurd hm List.not_mem_nil
          | walk e => simp [hedits, Except.map] at h
      | ok es =>
          simp only [hedits, Except.map, Except.ok.injEq, Prod.mk.injEq] at h
          rw [← h.1] at hm
          obtain ⟨e, he, rfl⟩ := List.mem_map.mp hm
          exact ⟨rfl, es, hedits, he⟩

/-- The candidates of several files are those of each. -/
theorem candidatesIn_mem {paths : List Path} {all : List Candidate} {log : List LogLine}
    (h : c.candidatesIn parser w paths = .ok (all, log)) :
    (∀ p ∈ paths, ∃ r, c.candidatesAt parser w p = .ok r) ∧
      ∀ m, m ∈ all ↔ ∃ p ∈ paths, ∃ found log,
        c.candidatesAt parser w p = .ok (found, log) ∧ m ∈ found := by
  induction paths generalizing all log with
  | nil =>
      simp only [candidatesIn, Except.ok.injEq, Prod.mk.injEq] at h
      simp [← h.1]
  | cons p rest ih =>
      simp only [candidatesIn, bind_eq_ok, pure_eq_ok, Prod.mk.injEq] at h
      obtain ⟨⟨found, log₁⟩, hp, ⟨more, log₂⟩, hrest, rfl, -⟩ := h
      obtain ⟨hok, hmem⟩ := ih hrest
      refine ⟨?_, ?_⟩
      · intro q hq
        rcases List.mem_cons.mp hq with rfl | hq
        · exact ⟨_, hp⟩
        · exact hok q hq
      · intro m
        rw [List.mem_append, hmem m]
        constructor
        · rintro (hm | ⟨q, hq, hfound⟩)
          · exact ⟨p, List.mem_cons_self, found, log₁, hp, hm⟩
          · exact ⟨q, List.mem_cons_of_mem p hq, hfound⟩
        · rintro ⟨q, hq, found', log', hfound, hm⟩
          rcases List.mem_cons.mp hq with rfl | hq
          · rw [hp] at hfound
            obtain ⟨rfl, -⟩ := Prod.mk.inj (Except.ok.inj hfound)
            exact Or.inl hm
          · exact Or.inr ⟨q, hq, found', log', hfound, hm⟩

theorem candidates_eq_ok {all : List Candidate} {log : List LogLine}
    (h : c.candidates parser w = .ok (all, log)) :
    ∃ log', c.candidatesIn parser w (c.sourcePaths w) = .ok (all, log') := by
  simp only [candidates, bind_eq_ok, pure_eq_ok, Prod.mk.injEq] at h
  obtain ⟨⟨found, log'⟩, hin, rfl, -⟩ := h
  exact ⟨log', hin⟩

/-! ### Paths and files -/

theorem mem_sourcePaths (h : p ∈ c.sourcePaths w) :
    ∃ place names, w.locate c.sources = .ok place ∧ names ∈ w.filesBelow place ∧
      p = Path.ofNames (sourceDirectory :: names.drop place.length) := by
  have hfile := (List.mem_filter.mp h).1
  unfold filePaths at hfile
  cases hplace : w.locate c.sources with
  | error e =>
      rw [hplace] at hfile
      exact absurd hfile List.not_mem_nil
  | ok place =>
      rw [hplace] at hfile
      obtain ⟨names, hnames, rfl⟩ := List.mem_map.mp (List.mem_mergeSort.mp hfile)
      exact ⟨place, names, rfl, hnames, rfl⟩

theorem join_injective {p q : Path} (hp : p ∈ c.sourcePaths w) (hq : q ∈ c.sourcePaths w)
    (h : c.root.join p = c.root.join q) : p = q := by
  obtain ⟨_, _, _, _, rfl⟩ := mem_sourcePaths hp
  obtain ⟨_, _, _, _, rfl⟩ := mem_sourcePaths hq
  simpa [Path.join, Path.ofNames] using h

/-- Different source paths lead to different names. -/
theorem locate_injective (hw : w.Plain) {p q : Path} {names : List String}
    (hp : p ∈ c.sourcePaths w) (hq : q ∈ c.sourcePaths w)
    (hpn : w.locate (c.root.join p) = .ok names) (hqn : w.locate (c.root.join q) = .ok names) :
    p = q := by
  -- the names are those of the source directory and then those of the path
  have hends : ∀ p ∈ c.sourcePaths w, w.locate (c.root.join p) = .ok names →
      ∃ place below, w.locate c.sources = .ok place ∧ names = place ++ below ∧
        p = Path.ofNames (sourceDirectory :: below) := by
    intro p hp hpn
    obtain ⟨place, found, hplace, hfound, rfl⟩ := mem_sourcePaths hp
    refine ⟨place, found.drop place.length, hplace, ?_, rfl⟩
    refine Workspace.locate_below hplace (mt List.mem_of_mem_drop (hw.filesBelow hfound)) ?_
    rw [← hpn]
    simp [sources, Path.join, Path.ofNames]
  obtain ⟨place, below, hplace, hnames, rfl⟩ := hends p hp hpn
  obtain ⟨place', below', hplace', hnames', rfl⟩ := hends q hq hqn
  rw [hplace] at hplace'
  obtain rfl := Except.ok.inj hplace'
  rw [hnames] at hnames'
  rw [List.append_cancel_left hnames']

end Crate

end Tighten
