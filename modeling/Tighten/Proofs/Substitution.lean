import Mathlib.Data.List.Nodup
import Tighten.Proofs.Batch

/-
A batch as one substitution.

Candidates for one text whose spans are different and do not overlap can be made together: each
file gets the gaps between the spans, as they were, with the replacements in between.  That their
spans are different settles the order in which they are made, so the new texts do not depend on the
order of the batch.  That order only decides which file is written first.

What a batch does is then a list of writes, one for each path.  Where the paths lead to files of
their own, it does not matter in which order these are made.
-/
namespace Tighten

open Text.Utf8 (encode)

namespace Batch

variable {batch batch' : List Candidate} {m k : Candidate} {p : Path}

/-! ### Batches that can be made -/

/-- Candidates for one file have different spans, one of which ends at or before the start of the
other. -/
def Compatible (m k : Candidate) : Prop :=
  m.file.path = k.file.path → m.span ≠ k.span ∧
    (k.span.start.before m.span.stop = false ∨ m.span.start.before k.span.stop = false)

instance (m k : Candidate) : Decidable (Compatible m k) :=
  inferInstanceAs (Decidable (_ → _))

theorem Compatible.symm (h : Compatible m k) : Compatible k m := by
  intro hpath
  obtain ⟨hne, hapart⟩ := h hpath.symm
  exact ⟨hne.symm, hapart.symm⟩

/-- A batch whose edits can all be made. -/
structure Consistent (batch : List Candidate) : Prop where
  /-- Candidates for one path carry the same text. -/
  sameText : ∀ m ∈ batch, ∀ k ∈ batch, m.file.path = k.file.path → m.file.code = k.file.code
  /-- Every span exists in the text. -/
  located : ∀ m ∈ batch, ∃ extent, m.Marks m.file.code.toList extent
  /-- Spans in one file do not overlap. -/
  compatible : batch.Pairwise Compatible

namespace Consistent

theorem perm (h : Consistent batch) (hperm : batch'.Perm batch) : Consistent batch' where
  sameText := by
    intro m hm k hk
    exact h.sameText m (hperm.mem_iff.mp hm) k (hperm.mem_iff.mp hk)
  located := by
    intro m hm
    exact h.located m (hperm.mem_iff.mp hm)
  compatible := (hperm.pairwise_iff Compatible.symm).mpr h.compatible

theorem within_compatible (h : Consistent batch) (p : Path) :
    (within batch p).Pairwise fun m k => m.span ≠ k.span ∧
      (k.span.start.before m.span.stop = false ∨ m.span.start.before k.span.stop = false) := by
  refine (h.compatible.filter _).imp_of_mem fun {m k} hm hk hmk => hmk ?_
  rw [(mem_within.mp hm).2, (mem_within.mp hk).2]

theorem span_ne (h : Consistent batch) (p : Path) :
    (within batch p).Pairwise fun m k => m.span ≠ k.span :=
  (h.within_compatible p).imp And.left

theorem newText_eq_edited (h : Consistent batch) (hm : m ∈ batch) :
    newText batch m.file.path = edited (within batch m.file.path) m.file.code := by
  refine newText_eq (mem_within.mpr ⟨hm, rfl⟩) fun k hk => ?_
  obtain ⟨hk, hpath⟩ := mem_within.mp hk
  exact h.sameText k hk m hm hpath

/-- The new text of a file is its old one with all edits made at once. -/
theorem exists_newText_patched (h : Consistent batch) {extent : Candidate → Nat × Nat}
    (hextent : ∀ m ∈ batch, m.Marks m.file.code.toList (extent m)) (hm : m ∈ batch) :
    ∃ code, newText batch m.file.path = .ok code ∧
      Patched ((within batch m.file.path).map fun k => k.patch (extent k)) m.file.code.toList
        code.toList := by
  have hmarks : ∀ k ∈ within batch m.file.path, k.Marks m.file.code.toList (extent k) := by
    intro k hk
    obtain ⟨hk, hpath⟩ := mem_within.mp hk
    rw [← h.sameText k hk m hm hpath]
    exact hextent k hk
  have hapart : (within batch m.file.path).Pairwise (Apart extent) := by
    refine (h.within_compatible _).imp_of_mem fun {k l} hk hl hkl => ?_
    have hkm := hmarks k hk
    have hlm := hmarks l hl
    exact hkl.2.imp (hkm.stop.not_before_iff hlm.start).mp (hlm.stop.not_before_iff hkm.start).mp
  obtain ⟨ordered, hperm, horder, hedited⟩ := edited_eq_of_marks hmarks hapart (h.span_ne _)
  rw [String.ofList_toList, ← h.newText_eq_edited hm] at hedited
  refine ⟨_, hedited, ordered.map fun k => k.patch (extent k), hperm.map _, ?_, ?_,
    String.toList_ofList⟩
  · rw [List.pairwise_map]
    exact horder
  · intro q hq
    obtain ⟨k, hk, rfl⟩ := List.mem_map.mp hq
    have hk := hmarks k (hperm.mem_iff.mp hk)
    exact ⟨hk.le, hk.stop.fits⟩

end Consistent

/-! ### The order of a batch -/

/-- Candidates with different spans are made in one order only. -/
theorem lastFirst_eq_of_perm {group group' : List Candidate} (hperm : group'.Perm group)
    (hspans : group.Pairwise fun m k => m.span ≠ k.span) : lastFirst group' = lastFirst group := by
  have hsorted : (lastFirst group').Perm (lastFirst group) :=
    (List.mergeSort_perm _ _).trans (hperm.trans (List.mergeSort_perm _ _).symm)
  have hnodup : (group.map Candidate.span).Nodup := List.pairwise_map.mpr hspans
  refine hsorted.eq_of_pairwise ?_ (pairwise_lastFirst group') (pairwise_lastFirst group)
  intro m k hm hk hmk hkm
  have hm : m ∈ group := hperm.mem_iff.mp ((List.mergeSort_perm _ _).mem_iff.mp hm)
  have hk : k ∈ group := (List.mergeSort_perm _ _).mem_iff.mp hk
  exact List.inj_on_of_nodup_map hnodup hm hk (Span.eq_of_not_before hmk hkm)

/-- The new texts do not depend on the order of the batch. -/
theorem Consistent.newText_perm (h : Consistent batch) (hperm : batch'.Perm batch)
    (hp : p ∈ paths batch) : newText batch' p = newText batch p := by
  obtain ⟨m, hm, rfl⟩ := mem_paths.mp hp
  have hgroup : (within batch' m.file.path).Perm (within batch m.file.path) := hperm.filter _
  rw [(h.perm hperm).newText_eq_edited (hperm.mem_iff.mpr hm), h.newText_eq_edited hm, edited,
    edited, lastFirst_eq_of_perm hgroup (h.span_ne _)]

theorem mem_paths_perm (hperm : batch'.Perm batch) : p ∈ paths batch' ↔ p ∈ paths batch := by
  simp only [mem_paths, hperm.mem_iff]

/-- There is one new text for each file, in whatever order the batch is given. -/
theorem Consistent.exists_code (h : Consistent batch) :
    ∃ code : Path → String, ∀ batch', batch'.Perm batch →
      ∀ p ∈ paths batch', newText batch' p = .ok (code p) := by
  have hlocated := h.located
  choose! extent hextent using hlocated
  have hnew : ∀ p ∈ paths batch, ∃ code, newText batch p = .ok code := by
    intro p hp
    obtain ⟨m, hm, rfl⟩ := mem_paths.mp hp
    obtain ⟨code, hcode, -⟩ := h.exists_newText_patched hextent hm
    exact ⟨code, hcode⟩
  choose! code hcode using hnew
  refine ⟨code, ?_⟩
  intro batch' hperm p hp
  rw [mem_paths_perm hperm] at hp
  rw [h.newText_perm hperm hp, hcode p hp]

/-- The one edit of a file. -/
theorem newText_single (hsingle : within batch m.file.path = [m]) :
    newText batch m.file.path = m.mutated := by
  simp [newText, hsingle, edited, lastFirst, Candidate.mutated]

end Batch

/-! ### The files afterwards -/

namespace Workspace

variable {w w₁ w₂ : Workspace} {ps qs : List Path} {bytes : Path → List UInt8}

/-- Each of the paths can be written, and different ones lead to different files. -/
structure Receives (w : Workspace) (ps : List Path) : Prop where
  accepts : ∀ p ∈ ps, ∃ names, w.Accepts p names
  separate : ∀ p ∈ ps, ∀ q ∈ ps, w.locate p = w.locate q → p = q

theorem Receives.mono (h : w.Receives ps) (hsub : ∀ p ∈ qs, p ∈ ps) : w.Receives qs where
  accepts := by
    intro p hp
    exact h.accepts p (hsub p hp)
  separate := by
    intro p hp q hq
    exact h.separate p (hsub p hp) q (hsub q hq)

/-- The files at the paths hold the given bytes, and everything else is as it was. -/
structure Rewritten (w : Workspace) (ps : List Path) (bytes : Path → List UInt8)
    (w' : Workspace) : Prop where
  written : ∀ p ∈ ps, ∃ names, w.locate p = .ok names ∧ w'.Holds p names (bytes p)
  untouched : ∀ names, (∀ p ∈ ps, w.locate p ≠ .ok names) → w'.entry? names = w.entry? names

/-- The outcome depends on what is written where, and on nothing else. -/
theorem Rewritten.entry?_eq (h₁ : w.Rewritten ps bytes w₁) (h₂ : w.Rewritten qs bytes w₂)
    (hmem : ∀ p, p ∈ ps ↔ p ∈ qs) (names : List String) : w₁.entry? names = w₂.entry? names := by
  by_cases hnames : ∃ p ∈ ps, w.locate p = .ok names
  · obtain ⟨p, hp, hlocate⟩ := hnames
    obtain ⟨place, hplace, -, hentry⟩ := h₁.written p hp
    obtain ⟨place', hplace', -, hentry'⟩ := h₂.written p ((hmem p).mp hp)
    rw [hlocate] at hplace hplace'
    obtain rfl := Except.ok.inj hplace
    obtain rfl := Except.ok.inj hplace'
    rw [hentry, hentry']
  · have hps : ∀ p ∈ ps, w.locate p ≠ .ok names := fun p hp heq => hnames ⟨p, hp, heq⟩
    have hqs : ∀ p ∈ qs, w.locate p ≠ .ok names := fun p hp => hps p ((hmem p).mpr hp)
    rw [h₁.untouched names hps, h₂.untouched names hqs]

/-- Files that can be written are all written, each once. -/
theorem Receives.exists_rewritten (hw : w.Receives ps) (hnodup : ps.Nodup)
    (bytes : Path → List UInt8) :
    ∃ w', Batch.writeAll writer (ps.map fun p => (p, bytes p)) w = (.ok (), w') ∧
      w.Rewritten ps bytes w' := by
  have haccepts := hw.accepts
  choose! place hplace using haccepts
  have hseparate : (ps.map fun p => (p, bytes p)).Pairwise fun f g => place f.1 ≠ place g.1 := by
    rw [List.pairwise_map]
    refine hnodup.imp_of_mem fun {p q} hp hq hpq heq => hpq (hw.separate p hp q hq ?_)
    rw [(hplace p hp).1, (hplace q hq).1, heq]
  obtain ⟨w', hwrite, -, -, hholds, hframe⟩ := Batch.writeAll_writer
    (ps.map fun p => (p, bytes p)) w (List.forall_mem_map.mpr hplace) hseparate
  simp only [List.forall_mem_map] at hholds hframe
  refine ⟨w', hwrite, ?_, ?_⟩
  · intro p hp
    exact ⟨place p, (hplace p hp).1, hholds p hp⟩
  · intro names hnames
    refine hframe names fun p hp heq => hnames p hp ?_
    rw [(hplace p hp).1, heq]

end Workspace

namespace Batch

/-- **Making a batch is one substitution, whatever its order.**  In the text of each file the spans
give way to their replacements, all at once, and a single edit comes out as by itself.  However the
batch is ordered, its paths are answered once each in the order in which they first occur, and what
is done is one write of the same text for each of them; when these succeed nothing fails.  So files
that can be written end up the same.

Only the last part asks that each path leads to a file of its own (`Workspace.Receives.separate`).
The writes are the same without it, but where two paths lead to one file, that file is left with the
text written last, in which the edits at the other path are missing. -/
theorem apply_substitutes {batch : List Candidate} (h : Consistent batch) :
    ∃ (extent : Candidate → Nat × Nat) (code : Path → String),
      (∀ m ∈ batch, m.Marks m.file.code.toList (extent m) ∧
        Patched ((within batch m.file.path).map fun k => k.patch (extent k)) m.file.code.toList
          (code m.file.path).toList ∧
        (within batch m.file.path = [m] → m.mutated = .ok (code m.file.path))) ∧
      (∀ batch', batch'.Perm batch →
        (∀ p, p ∈ paths batch' ↔ ∃ m ∈ batch, m.file.path = p) ∧
        ((paths batch').Pairwise fun p q => (batch'.map fun m => m.file.path).idxOf p <
          (batch'.map fun m => m.file.path).idxOf q) ∧
        ∀ (σ : Type) (write : Writer σ) (s s' : σ),
          apply write batch' s = (.ok (paths batch'), s') ↔
            writeAll write ((paths batch').map fun p => (p, encode (code p).toList)) s
              = (.ok (), s')) ∧
      ∀ w : Workspace, w.Receives (paths batch) →
        ∃ w', w.Rewritten (paths batch) (fun p => encode (code p).toList) w' ∧
          ∀ batch', batch'.Perm batch →
            ∃ w'', apply Workspace.writer batch' w = (.ok (paths batch'), w'') ∧
              ∀ names, w''.entry? names = w'.entry? names := by
  have hlocated := h.located
  choose! extent hextent using hlocated
  obtain ⟨code, hcode⟩ := h.exists_code
  refine ⟨extent, code, ?_, ?_, ?_⟩
  · intro m hm
    obtain ⟨text, htext, hpatched⟩ := h.exists_newText_patched hextent hm
    have hsame := hcode batch (.refl batch) _ (mem_paths.mpr ⟨m, hm, rfl⟩)
    rw [htext] at hsame
    obtain rfl := Except.ok.inj hsame
    refine ⟨hextent m hm, hpatched, ?_⟩
    intro hsingle
    rw [← newText_single hsingle, htext]
  · intro batch' hperm
    refine ⟨?_, paths_inOrder batch', ?_⟩
    · intro p
      rw [mem_paths_perm hperm, mem_paths]
    · intro σ write s s'
      exact apply_eq_ok_iff (hcode batch' hperm)
  · intro w hw
    obtain ⟨w', -, hw'⟩ := hw.exists_rewritten (paths_nodup batch) fun p => encode (code p).toList
    refine ⟨w', hw', ?_⟩
    intro batch' hperm
    have hreceives := hw.mono fun p hp => (mem_paths_perm hperm).mp hp
    obtain ⟨w'', hwrite, hw''⟩ :=
      hreceives.exists_rewritten (paths_nodup batch') fun p => encode (code p).toList
    exact ⟨w'', (apply_eq_ok_iff (hcode batch' hperm)).mpr hwrite,
      hw''.entry?_eq hw' fun p => mem_paths_perm hperm⟩

/-- Edits on both sides of an empty span's place, over a newline and in a second file. -/
def crowded : List Candidate :=
  let first : SourceFile := ⟨⟨"/", ["a.rs"]⟩, ⟨"", ["a.rs"]⟩, "pub a\npub é"⟩
  let second : SourceFile := ⟨⟨"/", ["b.rs"]⟩, ⟨"", ["b.rs"]⟩, "pub b"⟩
  [⟨first, .toSelf, .after "pub".toList, .after "pub".toList, rfl⟩,
    ⟨second, .toSuper, .after [], .after "pub".toList, rfl⟩,
    ⟨first, .toCrate, .after "pub a".toList, .after "pub a\npub".toList, rfl⟩,
    ⟨first, .toInherited, .after [], .after "pub".toList, rfl⟩]

example : newText crowded ⟨"/", ["a.rs"]⟩ = .ok "pub(self) apub(crate) é" := by cbv

theorem crowded_consistent : Consistent crowded where
  sameText := by decide
  located := by
    simp only [crowded, List.forall_mem_cons]
    exact ⟨⟨(3, 3), by decide⟩, ⟨(0, 3), by decide⟩, ⟨(5, 9), by decide⟩, ⟨(0, 3), by decide⟩,
      fun _ h => absurd h List.not_mem_nil⟩
  compatible := by decide

/-- A directory with an empty file for the first of the crowded texts and none for the second. -/
def halfEmpty : Workspace := ⟨⟨"/", []⟩, [(["a.rs"], .file [])]⟩

theorem halfEmpty_receives : halfEmpty.Receives (paths crowded) := by
  have hpaths : paths crowded = [⟨"/", ["a.rs"]⟩, ⟨"/", ["b.rs"]⟩] := by decide
  rw [hpaths]
  refine ⟨?_, by decide⟩
  simp only [List.forall_mem_cons]
  exact ⟨⟨["a.rs"], by decide, by decide⟩, ⟨["b.rs"], by decide, by decide⟩,
    fun _ h => absurd h List.not_mem_nil⟩

/-- The crowded texts are written in any order, and the second file is then the one edit of it. -/
theorem apply_substitutes_crowded :
    ∃ w' : Workspace, w'.entry? ["b.rs"] = some (.file (encode "pub(super) b".toList)) ∧
      ∀ batch', batch'.Perm crowded →
        ∃ w'', apply Workspace.writer batch' halfEmpty = (.ok (paths batch'), w'') ∧
          ∀ names, w''.entry? names = w'.entry? names := by
  obtain ⟨extent, code, htexts, -, hfiles⟩ := apply_substitutes crowded_consistent
  obtain ⟨w', hw', hperms⟩ := hfiles halfEmpty halfEmpty_receives
  refine ⟨w', ?_, hperms⟩
  obtain ⟨names, hnames, -, hentry⟩ := hw'.written ⟨"/", ["b.rs"]⟩ (by decide)
  obtain rfl : ["b.rs"] = names := Except.ok.inj hnames
  have hsingle := (htexts (crowded.get ⟨1, by decide⟩) (by decide)).2.2 (by decide)
  have hcode : code ⟨"/", ["b.rs"]⟩ = "pub(super) b" := (Except.ok.inj hsingle).symm
  rw [hentry, hcode]

end Batch

end Tighten
