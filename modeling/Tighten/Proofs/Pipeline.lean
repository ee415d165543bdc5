import Tighten.Proofs.Batch
import Tighten.Proofs.Crate
import Tighten.Proofs.Discovery
import Tighten.Proofs.Sampling

/-
From a crate to its narrowed files.

A batch that was sampled can be made.  Each of its candidates stands for a modifier in the tree of
its file, and at most one candidate for each.  The modifiers of a file do not overlap, so the edits
of a file do not get in each other's way: making the batch replaces the bytes of exactly these
modifiers.

All that is assumed of the parser is that its trees are laid out over the text.
-/
namespace Tighten

open Syntax Text.Utf8

/-- The candidate narrows a modifier in the tree of its file. -/
def Candidate.Anchored (parser : Parser) (m : Candidate) (v : Node) : Prop :=
  ∃ root, parser m.file.code = .ok root ∧ ∃ n ∈ Discovery.declared root, n.modifier? = some v ∧
    Discovery.Narrows (encode m.file.code.toList) v ⟨m.narrowing, m.span⟩

/-- What a candidate does to the bytes of the modifier that it narrows. -/
def Candidate.patchAt (m : Candidate) (v : Node) : Patch UInt8 :=
  ⟨v.start, v.stop, encode m.narrowing.replacement.toList⟩

/-- A parser whose trees are laid out over the text. -/
def LaysOut (parser : Parser) : Prop :=
  ∀ code root, parser code = .ok root → TreeOver code.toList root

namespace Pipeline

variable {ρ : Type} {parser : Parser} {source : RandomSource ρ} {w : Workspace} {c : Crate}
  {batch : List Candidate}

/-- What is known of a batch that was sampled. -/
structure Sampled (parser : Parser) (w : Workspace) (c : Crate) (batch : List Candidate) :
    Prop where
  loaded : ∀ m ∈ batch, ∃ p ∈ c.sourcePaths w, SourceFile.load w c.root p = .ok m.file
  anchored : ∀ m ∈ batch, ∃ v, m.Anchored parser v
  distinct : (batch.map Candidate.place).Nodup

theorem sampled_of_sample (hsource : source.Lawful) {least most : Int} {random : ρ}
    (h : (Sampling.sample parser source w c least most random).batch = .ok batch) :
    Sampled parser w c batch := by
  obtain ⟨total, random', d, hgrowth, rfl⟩ := Sampling.growth_of_sample h
  have hsound := Sampling.fill_sound (Sampling.candidatesAt_separates parser w c) hsource
    (Sampling.start_sound _ random' _) hgrowth
  have hoffered : ∀ m ∈ d.batch, ∃ p ∈ c.sourcePaths w, SourceFile.load w c.root p = .ok m.file ∧
      ∃ es, edits parser m.file.code = .ok es ∧ ⟨m.narrowing, m.span⟩ ∈ es := by
    intro m hm
    obtain ⟨p, hp, -, found, log, hfound, hmem⟩ := hsound.offered m hm
    exact ⟨p, hp, Crate.candidatesAt_mem hfound hmem⟩
  refine ⟨?_, ?_, hsound.distinct⟩
  · intro m hm
    obtain ⟨p, hp, hload, -⟩ := hoffered m hm
    exact ⟨p, hp, hload⟩
  · intro m hm
    obtain ⟨p, -, -, es, hedits, hmem⟩ := hoffered m hm
    simp only [edits, bind_eq_ok, mapError_eq_ok] at hedits
    obtain ⟨root, hroot, hwalk⟩ := hedits
    obtain ⟨n, hn, v, hv, hnarrows⟩ := Discovery.walk_mem hwalk hmem
    exact ⟨v, root, hroot, n, hn, hv, hnarrows⟩

/-! ### One file -/

section File

variable {m k : Candidate} {v u : Node}

/-- The modifier of a candidate and the characters that its span covers are the same place. -/
theorem covers_of_anchored (hparser : LaysOut parser) (h : m.Anchored parser v) :
    ∃ extent : Nat × Nat, m.Covers m.file.code.toList extent ∧
      v.start = bytesBefore m.file.code.toList extent.1 ∧
      v.stop = bytesBefore m.file.code.toList extent.2 := by
  obtain ⟨root, hroot, n, hn, hv, hnarrows⟩ := h
  have hwithin : Within root v :=
    .child (Discovery.within_declared root hn) (Discovery.mem_of_modifier? hv)
  obtain ⟨a, b, hab, hb, hstart, hstop, hspan⟩ :=
    hnarrows.stretch (hparser _ root hroot v hwithin)
  exact ⟨(a, b), ⟨hab, hb, hspan.1, hspan.2⟩, hstart, hstop⟩

/-- Candidates of one file with different spans narrow modifiers that do not overlap. -/
theorem apart_of_anchored (hparser : LaysOut parser) (hm : m.Anchored parser v)
    (hk : k.Anchored parser u) (hfile : m.file = k.file) (hspan : m.span ≠ k.span) :
    v.stop ≤ u.start ∨ u.stop ≤ v.start := by
  obtain ⟨root, hroot, n, hn, hv, hmv⟩ := hm
  obtain ⟨root', hroot', n', hn', hu, hku⟩ := hk
  rw [← hfile, hroot] at hroot'
  obtain rfl := Except.ok.inj hroot'
  have hmem : ∀ {n v : Node}, n ∈ Discovery.declared root → n.modifier? = some v →
      v ∈ Discovery.modifiers (Discovery.declared root) := by
    intro n v hn hv
    exact List.mem_flatMap.mpr ⟨n, hn, by rw [hv]; exact Option.mem_toList.mpr rfl⟩
  have hne : v ≠ u := by
    rintro rfl
    have hplace := hku.place
    rw [← hfile, hmv.place] at hplace
    exact hspan (Except.ok.inj hplace)
  have hrow := (Discovery.inRow_declared root (hparser _ root hroot).nested).1
  have hsymm : Std.Symm fun v u : Node => v.stop ≤ u.start ∨ u.stop ≤ v.start :=
    ⟨fun _ _ => Or.symm⟩
  have hpairs : (Discovery.modifiers (Discovery.declared root)).Pairwise
      fun v u => v.stop ≤ u.start ∨ u.stop ≤ v.start := hrow.imp Or.inl
  exact hpairs.forall (hmem hn hv) (hmem hn' hu) hne

end File

/-- The new text of a file: its bytes are patched at the modifiers that its candidates narrow. -/
theorem edited_patched (hparser : LaysOut parser) {file : SourceFile} {group : List Candidate}
    (hfile : ∀ m ∈ group, m.file = file) (hspan : (group.map Candidate.span).Nodup)
    {anchor : Candidate → Node} (hanchor : ∀ m ∈ group, m.Anchored parser (anchor m)) :
    ∃ code, Batch.edited group file.code = .ok code ∧
      Patched (group.map fun m => m.patchAt (anchor m)) (encode file.code.toList)
        (encode code.toList) := by
  have hcovers : ∀ m ∈ group, ∃ extent : Nat × Nat, m.Covers file.code.toList extent ∧
      (anchor m).start = bytesBefore file.code.toList extent.1 ∧
      (anchor m).stop = bytesBefore file.code.toList extent.2 := by
    intro m hm
    have h := covers_of_anchored hparser (hanchor m hm)
    rwa [hfile m hm] at h
  choose! extent hcover hstart hstop using hcovers
  have hapart : group.Pairwise (Batch.Apart extent) := by
    have hspan' : group.Pairwise fun m k => m.span ≠ k.span := List.pairwise_map.mp hspan
    refine hspan'.imp_of_mem fun {m k} hm hk hne => ?_
    have hmk := apart_of_anchored hparser (hanchor m hm) (hanchor k hk)
      ((hfile m hm).trans (hfile k hk).symm) hne
    rw [hstart m hm, hstop m hm, hstart k hk, hstop k hk] at hmk
    exact hmk.imp (index_le_of_bytesBefore (hcover m hm).fits)
      (index_le_of_bytesBefore (hcover k hk).fits)
  obtain ⟨ordered, hperm, horder, hedited⟩ := Batch.edited_eq hcover hapart
  rw [String.ofList_toList] at hedited
  refine ⟨_, hedited, ?_⟩
  rw [String.toList_ofList]
  refine patched_encode ?_ ?_ ?_
  · rw [List.pairwise_map]
    exact horder
  · intro p hp
    obtain ⟨m, hm, rfl⟩ := List.mem_map.mp hp
    exact Nat.le_of_lt (hcover m (hperm.mem_iff.mp hm)).nonempty
  · rw [List.map_map]
    have hsame : ordered.map (Patch.encoded file.code.toList ∘ fun m => m.patch (extent m))
        = ordered.map fun m => m.patchAt (anchor m) := by
      refine List.map_congr_left fun m hm => ?_
      have hm' := hperm.mem_iff.mp hm
      simp only [Function.comp_apply, Patch.encoded, Candidate.patch, Candidate.patchAt,
        hstart m hm', hstop m hm']
    rw [hsame]
    exact hperm.map _

/-! ### All files -/

namespace Sampled

variable {m k : Candidate}

/-- A path of the batch is that of a source file, which was read. -/
theorem exists_read (h : Sampled parser w c batch) (hm : m ∈ batch) :
    ∃ p ∈ c.sourcePaths w, m.file.path = c.root.join p ∧
      ∃ old, w.read (c.root.join p) = .ok old ∧ codeOf old = .ok m.file.code := by
  obtain ⟨p, hp, hload⟩ := h.loaded m hm
  obtain ⟨old, hread, hcode, hpath, -⟩ := SourceFile.load_eq_ok hload
  exact ⟨p, hp, hpath, old, hread, hcode⟩

/-- Candidates with the same path are candidates of the same file. -/
theorem file_eq (h : Sampled parser w c batch) (hm : m ∈ batch) (hk : k ∈ batch)
    (hpath : m.file.path = k.file.path) : m.file = k.file := by
  obtain ⟨p, hp, hloadp⟩ := h.loaded m hm
  obtain ⟨q, hq, hloadq⟩ := h.loaded k hk
  obtain ⟨-, -, -, hpathp, -⟩ := SourceFile.load_eq_ok hloadp
  obtain ⟨-, -, -, hpathq, -⟩ := SourceFile.load_eq_ok hloadq
  rw [hpathp, hpathq] at hpath
  have heq : p = q := Crate.join_injective hp hq hpath
  rw [heq, hloadq] at hloadp
  exact (Except.ok.inj hloadp).symm

/-- Different paths of the batch lead to different files. -/
theorem locate_ne (h : Sampled parser w c batch) (hw : w.Plain) (hm : m ∈ batch) (hk : k ∈ batch)
    (hpath : m.file.path ≠ k.file.path) {names : List String}
    (hmn : w.locate m.file.path = .ok names) : w.locate k.file.path ≠ .ok names := by
  intro hkn
  obtain ⟨p, hp, hpathp, -⟩ := h.exists_read hm
  obtain ⟨q, hq, hpathq, -⟩ := h.exists_read hk
  rw [hpathp] at hmn
  rw [hpathq] at hkn
  refine hpath ?_
  rw [hpathp, hpathq, Crate.locate_injective hw hp hq hmn hkn]

/-- The candidates of one path have different spans. -/
theorem within_span_nodup (h : Sampled parser w c batch) (p : Path) :
    ((Batch.within batch p).map Candidate.span).Nodup := by
  have hdistinct : batch.Pairwise fun m k => m.place ≠ k.place := List.pairwise_map.mp h.distinct
  refine List.pairwise_map.mpr ?_
  refine (hdistinct.sublist List.filter_sublist).imp_of_mem fun {m k} hm hk hplace hspan => ?_
  obtain ⟨hm, hmp⟩ := Batch.mem_within.mp hm
  obtain ⟨hk, hkp⟩ := Batch.mem_within.mp hk
  exact hplace (Prod.ext (h.file_eq hm hk (hmp.trans hkp.symm)) hspan)

/-- Every file of the batch exists and has a new text, which patches the text that it has. -/
theorem exists_newText (h : Sampled parser w c batch) (hparser : LaysOut parser)
    {anchor : Candidate → Node} (hanchor : ∀ m ∈ batch, m.Anchored parser (anchor m)) {p : Path}
    (hp : p ∈ Batch.paths batch) :
    ∃ code names old, Batch.newText batch p = .ok code ∧ w.Holds p names old ∧
      Patched ((Batch.within batch p).map fun m => m.patchAt (anchor m)) (unixBytes old)
        (encode code.toList) := by
  obtain ⟨m, hm, rfl⟩ := Batch.mem_paths.mp hp
  have hfile : ∀ k ∈ Batch.within batch m.file.path, k.file = m.file := by
    intro k hk
    obtain ⟨hk, hpath⟩ := Batch.mem_within.mp hk
    exact h.file_eq hk hm hpath
  obtain ⟨code, hedited, hpatched⟩ := edited_patched hparser hfile (h.within_span_nodup _)
    fun k hk => hanchor k (Batch.mem_within.mp hk).1
  obtain ⟨p, -, hpath, old, hread, hcode⟩ := h.exists_read hm
  obtain ⟨names, hholds⟩ := Workspace.read_eq_ok.mp hread
  refine ⟨code, names, old, ?_, by rw [hpath]; exact hholds, ?_⟩
  · have hne : m ∈ Batch.within batch m.file.path := Batch.mem_within.mpr ⟨hm, rfl⟩
    rw [Batch.newText_eq hne fun k hk => congrArg SourceFile.code (hfile k hk)]
    exact hedited
  · rwa [encode_codeOf hcode] at hpatched

end Sampled

/-- The outcome of a batch.  In each of its files the bytes of the modifiers are replaced, all at
once, in what the file held with Unix line endings; everything else is as it was. -/
structure Made (batch : List Candidate) (anchor : Candidate → Node) (w w' : Workspace) : Prop where
  touched : ∀ p ∈ Batch.paths batch, ∃ old new, w.read p = .ok old ∧ w'.read p = .ok new ∧
    Patched ((Batch.within batch p).map fun m => m.patchAt (anchor m)) (unixBytes old) new
  untouched : ∀ names, (∀ p ∈ Batch.paths batch, w.locate p ≠ .ok names) →
    w'.entry? names = w.entry? names

/-- **A sampled batch is made exactly.**  Its candidates narrow modifiers of declarations, and
making it replaces the bytes of these modifiers in their files and nothing else.  No region is ever
out of range, whoever writes the files; and whoever does, when no write fails the files come out
the same.

In a workspace no two source paths are one file, since it has no links of either kind.  Through a
link a file could be sampled at two paths, and the text written last would lack the edits at the
other path. -/
theorem apply_sample_exact (hparser : LaysOut parser) (hsource : source.Lawful) (hw : w.Plain)
    {least most : Int} {random : ρ}
    (h : (Sampling.sample parser source w c least most random).batch = .ok batch) :
    ∃ anchor : Candidate → Node, (∀ m ∈ batch, m.Anchored parser (anchor m)) ∧
      ((Batch.paths batch).map fun p => (Batch.within batch p).length).sum = batch.length ∧
      (∀ (σ : Type) (write : Writer σ) (s : σ) (e : RegionError),
        (Batch.apply write batch s).1 ≠ .error (.region e)) ∧
      ∃ w', Batch.apply Workspace.writer batch w = (.ok (Batch.paths batch), w') ∧
        Made batch anchor w w' ∧
        ∀ (σ : Type) (view : σ → Workspace) (write : Writer σ), Batch.Honest view write →
          ∀ s s' ps, view s = w → Batch.apply write batch s = (.ok ps, s') → view s' = w' := by
  have hsampled := sampled_of_sample hsource h
  obtain ⟨anchor, hanchor⟩ : ∃ anchor : Candidate → Node,
      ∀ m ∈ batch, m.Anchored parser (anchor m) := by
    choose! anchor hanchor using hsampled.anchored
    exact ⟨anchor, hanchor⟩
  have hnew : ∀ p ∈ Batch.paths batch, ∃ code names old, Batch.newText batch p = .ok code ∧
      w.Holds p names old ∧
      Patched ((Batch.within batch p).map fun m => m.patchAt (anchor m)) (unixBytes old)
        (encode code.toList) := fun p hp => hsampled.exists_newText hparser hanchor hp
  choose! code place old hcode hholds hpatched using hnew
  have hplace : (Batch.paths batch).Pairwise fun p q => place p ≠ place q := by
    refine (Batch.paths_nodup batch).imp_of_mem fun {p q} hp hq hpq heq => ?_
    obtain ⟨m, hm, rfl⟩ := Batch.mem_paths.mp hp
    obtain ⟨k, hk, rfl⟩ := Batch.mem_paths.mp hq
    refine hsampled.locate_ne hw hm hk hpq (hholds _ hp).1 ?_
    rw [heq]
    exact (hholds _ hq).1
  obtain ⟨w', happly, halike, hwritten, hframe⟩ := Batch.applyTo_writer (Batch.paths batch) w hcode
    (fun p hp => ⟨old p, hholds p hp⟩) hplace
  have hdone : Batch.apply Workspace.writer batch w = (.ok (Batch.paths batch), w') :=
    Batch.apply_eq_ok.mpr ⟨rfl, happly⟩
  refine ⟨anchor, hanchor, Batch.sum_within batch, ?_, w', hdone, ⟨?_, ?_⟩, ?_⟩
  · intro σ write s e
    exact Batch.apply_ne_region (fun p hp => ⟨code p, hcode p hp⟩) s e
  · intro p hp
    exact ⟨old p, encode (code p).toList, Workspace.read_eq_ok.mpr ⟨place p, hholds p hp⟩,
      Workspace.read_eq_ok.mpr ⟨place p, hwritten p hp⟩, hpatched p hp⟩
  · intro names hnames
    refine hframe names fun p hp heq => hnames p hp ?_
    rw [← heq]
    exact (hholds p hp).1
  · intro σ view write hhonest s s' ps hview hs
    have hsame := Batch.apply_honest hhonest hs
    rw [hview, hdone] at hsame
    exact (Prod.mk.inj hsame).2.symm

/-- The parser that also refuses a text whose tree is not laid out over it. -/
def carefulParser : Parser := fun code => do
  let root ← Rust.parse code
  if treeCheck code.toList root then return root else throw ⟨"unknown location"⟩

theorem carefulParser_laysOut : LaysOut carefulParser := by
  intro code root h
  simp only [carefulParser, bind_eq_ok] at h
  obtain ⟨tree, -, h⟩ := h
  split at h
  · next hcheck =>
      obtain rfl := pure_eq_ok.mp h
      exact treeOver_of_check tree hcheck
  · cases h

/-- In the small crate both modifiers are sampled, and go. -/
theorem apply_sample_exact_smallCrate :
    ∃ batch anchor w', (Sampling.sample carefulParser Sampling.first Sampling.smallFiles
        Sampling.smallCrate 3 5 ()).batch = .ok batch ∧ batch.length = 2 ∧
      Batch.apply Workspace.writer batch Sampling.smallFiles = (.ok (Batch.paths batch), w') ∧
      Made batch anchor Sampling.smallFiles w' := by
  have heval : (Sampling.sample carefulParser Sampling.first Sampling.smallFiles
      Sampling.smallCrate 3 5 ()).batch.toOption.map List.length = some 2 := by decide +kernel
  have hplain : Sampling.smallFiles.Plain := by decide
  cases hbatch : (Sampling.sample carefulParser Sampling.first Sampling.smallFiles
      Sampling.smallCrate 3 5 ()).batch with
  | error e => simp [hbatch, Except.toOption] at heval
  | ok batch =>
      obtain ⟨anchor, -, -, -, w', happly, hmade, -⟩ := apply_sample_exact carefulParser_laysOut
        Sampling.first_lawful hplain hbatch
      exact ⟨batch, anchor, w', rfl, by simpa [hbatch, Except.toOption] using heval, happly, hmade⟩

end Pipeline

end Tighten
