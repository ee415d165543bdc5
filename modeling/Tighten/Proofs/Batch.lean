import Mathlib.Algebra.BigOperators.Group.List.Lemmas
import Mathlib.Algebra.GroupWithZero.Nat
import Tighten.Batch
import Tighten.Proofs.Patch
import Tighten.Proofs.Region
import Tighten.Proofs.Workspace

/-
Making a batch.

The edits of a file are made one by one from the last to the first, each in the text that the ones
after it have left.  Its positions are those of the text as it was; they still hold, because nothing
before them has changed yet.  So the outcome is the same as if all edits were made at once, and no
edit finds its region out of range.

Files are written one by one as well, in the order in which the batch first names them.  Where every
new text exists, making the batch is `writeAll` of these texts.  A batch for files that exist writes
over each of them once and leaves the others alone, whoever does the writing.
-/
namespace Tighten

open Text.Utf8 (encode)

/-! ### Edits of one text -/

/-- The ends of the candidate's span are at two offsets of a text. -/
structure Candidate.Marks (m : Candidate) (text : List Char) (extent : Nat × Nat) : Prop where
  start : Region.IsOffset text m.span.start extent.1
  stop : Region.IsOffset text m.span.stop extent.2

instance (m : Candidate) (text : List Char) (extent : Nat × Nat) :
    Decidable (m.Marks text extent) :=
  decidable_of_iff (Region.IsOffset text m.span.start extent.1 ∧
      Region.IsOffset text m.span.stop extent.2)
    ⟨fun h => ⟨h.1, h.2⟩, fun h => ⟨h.start, h.stop⟩⟩

theorem Candidate.Marks.le {m : Candidate} {text : List Char} {extent : Nat × Nat}
    (h : m.Marks text extent) : extent.1 ≤ extent.2 :=
  (h.start.not_before_iff h.stop).mp m.span.ordered

/-- The candidate's span is that of the characters of a text from one index up to another. -/
structure Candidate.Covers (m : Candidate) (text : List Char) (extent : Nat × Nat) : Prop where
  nonempty : extent.1 < extent.2
  fits : extent.2 ≤ text.length
  start : m.span.start = Position.after (text.take extent.1)
  stop : m.span.stop = Position.after (text.take extent.2)

theorem Candidate.Covers.marks {m : Candidate} {text : List Char} {extent : Nat × Nat}
    (h : m.Covers text extent) : m.Marks text extent where
  start := Region.isOffset_iff.mpr ⟨Nat.le_trans (Nat.le_of_lt h.nonempty) h.fits, h.start⟩
  stop := Region.isOffset_iff.mpr ⟨h.fits, h.stop⟩

/-- What a candidate does to the characters that it covers. -/
def Candidate.patch (m : Candidate) (extent : Nat × Nat) : Patch Char :=
  ⟨extent.1, extent.2, m.narrowing.replacement.toList⟩

namespace Batch

variable {text : List Char} {m : Candidate} {extent : Candidate → Nat × Nat}

/-- An edit before all those that were made is made in its place. -/
theorem applyTo_splice {e : Nat × Nat} {done : List (Patch Char)} (h : m.Marks text e)
    (hdone : ∀ p ∈ done, e.2 ≤ p.start) :
    m.applyTo (String.ofList (splice text 0 done))
      = .ok (String.ofList (splice text 0 (m.patch e :: done))) := by
  obtain ⟨a, b⟩ := e
  have hab : a ≤ b := h.le
  have hb : b ≤ text.length := h.stop.fits
  have hlen : (text.take b).length = b := List.length_take_of_le hb
  have hdocument : splice text 0 done = text.take b ++ splice text b done := by
    have hsplit := splice_append text (Nat.zero_le b) hdone
    rwa [List.drop_zero, Nat.sub_zero] at hsplit
  have hfits : b ≤ (splice text 0 done).length := by
    rw [hdocument, List.length_append]
    omega
  have hbefore : ∀ k ≤ b, (splice text 0 done).take k = text.take k := by
    intro k hk
    rw [hdocument, List.take_append_of_le_length (by omega), List.take_take, Nat.min_eq_left hk]
  have hafter : (splice text 0 done).drop b = splice text b done := by
    rw [hdocument]
    exact List.drop_left' hlen
  refine Region.replace_eq_ok_iff.mpr ⟨a, b, ?_, ?_, m.span.ordered, ?_⟩
  · rw [String.toList_ofList]
    exact h.start.of_take (Nat.le_trans hab hfits) (hbefore a hab)
  · rw [String.toList_ofList]
    exact h.stop.of_take hfits (hbefore b (Nat.le_refl b))
  · rw [String.toList_ofList, String.toList_ofList, hbefore a hab, hafter]
    rfl

/-- Candidates for the text in the order of their places. -/
def InOrder (extent : Candidate → Nat × Nat) (group : List Candidate) : Prop :=
  group.Pairwise fun m k => (extent m).2 ≤ (extent k).1

/-- The characters patched by several candidates. -/
def patched (extent : Candidate → Nat × Nat) (text : List Char) (group : List Candidate) :
    List Char :=
  splice text 0 (group.map fun m => m.patch (extent m))

/-- Made from the last to the first, edits come out as if made at once. -/
theorem foldlM_applyTo (todo : List Candidate) :
    ∀ done : List Candidate, (∀ m ∈ todo, m.Marks text (extent m)) →
      InOrder extent (todo.reverse ++ done) →
      todo.foldlM (fun code c => c.applyTo code) (String.ofList (patched extent text done))
        = .ok (String.ofList (patched extent text (todo.reverse ++ done))) := by
  induction todo with
  | nil => intro done _ _; rfl
  | cons m todo ih =>
      intro done hmarks horder
      rw [List.reverse_cons, List.append_assoc, List.singleton_append] at horder ⊢
      have hdone : ∀ p ∈ done.map (fun m => m.patch (extent m)), (extent m).2 ≤ p.start := by
        intro p hp
        obtain ⟨k, hk, rfl⟩ := List.mem_map.mp hp
        exact (List.pairwise_cons.mp (List.pairwise_append.mp horder).2.1).1 k hk
      rw [List.foldlM_cons, patched, applyTo_splice (hmarks m List.mem_cons_self) hdone]
      exact ih (m :: done) (fun k hk => hmarks k (List.mem_cons_of_mem m hk)) horder

/-- Candidates that cover different places. -/
def Apart (extent : Candidate → Nat × Nat) (m k : Candidate) : Prop :=
  (extent m).2 ≤ (extent k).1 ∨ (extent k).2 ≤ (extent m).1

theorem Apart.symm {k : Candidate} (h : Apart extent m k) : Apart extent k m :=
  Or.symm h

/-- From the last span to the first. -/
theorem pairwise_lastFirst (group : List Candidate) :
    (lastFirst group).Pairwise fun a b => (!a.span.before b.span) = true := by
  refine List.pairwise_mergeSort ?_ ?_ group
  · intro a b c
    exact Span.not_before_trans
  · intro a b
    exact Span.before_asymm a.span b.span

/-- Of two different spans, the one that lies before the other comes before it, also where it is
empty. -/
theorem before_of_le {k : Candidate} {e f : Nat × Nat} (hm : m.Marks text e) (hk : k.Marks text f)
    (hle : e.2 ≤ f.1) (hne : m.span ≠ k.span) : m.span.before k.span = true := by
  have hme := hm.le
  have hkf := hk.le
  rw [Span.before_iff, hm.start.before_iff hk.start, hm.stop.before_iff hk.stop, beq_iff_eq]
  rcases Nat.lt_or_ge e.1 f.1 with hlt | hge
  · exact Or.inl hlt
  · -- an empty span at the start of the other one
    have hstart : m.span.start = k.span.start := by
      have heq : e.1 = f.1 := by omega
      rw [(Region.isOffset_iff.mp hm.start).2, (Region.isOffset_iff.mp hk.start).2, heq]
    refine Or.inr ⟨hstart, ?_⟩
    by_contra hstop
    have heq : e.2 = f.2 := by omega
    have hsame : m.span.stop = k.span.stop := by
      rw [(Region.isOffset_iff.mp hm.stop).2, (Region.isOffset_iff.mp hk.stop).2, heq]
    exact hne (Span.ext hstart hsame)

/-- The order by spans is the order by places. -/
theorem reverse_lastFirst_inOrder {group : List Candidate}
    (hmarks : ∀ m ∈ group, m.Marks text (extent m)) (hapart : group.Pairwise (Apart extent))
    (hspans : group.Pairwise fun m k => m.span ≠ k.span) :
    InOrder extent (lastFirst group).reverse := by
  have hperm : (lastFirst group).Perm group := List.mergeSort_perm _ _
  have happart : (lastFirst group).Pairwise (Apart extent) :=
    (hperm.pairwise_iff Apart.symm).mpr hapart
  have hspans' : (lastFirst group).Pairwise fun m k => m.span ≠ k.span :=
    (hperm.pairwise_iff Ne.symm).mpr hspans
  rw [InOrder, List.pairwise_reverse]
  refine ((pairwise_lastFirst group).and (happart.and hspans')).imp_of_mem
    fun {m k} hm hk hboth => ?_
  obtain ⟨hnot, hmk | hkm, hne⟩ := hboth
  · -- then the first span would come before the second one
    have hbefore := before_of_le (hmarks m (hperm.mem_iff.mp hm)) (hmarks k (hperm.mem_iff.mp hk))
      hmk hne
    rw [hbefore] at hnot
    cases hnot
  · exact hkm

/-- Edits of one text at different places can all be made, and come out as if made at once. -/
theorem edited_eq_of_marks {group : List Candidate}
    (hmarks : ∀ m ∈ group, m.Marks text (extent m)) (hapart : group.Pairwise (Apart extent))
    (hspans : group.Pairwise fun m k => m.span ≠ k.span) :
    ∃ ordered : List Candidate, ordered.Perm group ∧ InOrder extent ordered ∧
      edited group (String.ofList text) = .ok (String.ofList (patched extent text ordered)) := by
  have hperm : (lastFirst group).Perm group := List.mergeSort_perm _ _
  have horder := reverse_lastFirst_inOrder hmarks hapart hspans
  refine ⟨(lastFirst group).reverse, (List.reverse_perm _).trans hperm, horder, ?_⟩
  have hfold := foldlM_applyTo (lastFirst group) []
    (fun m hm => hmarks m (hperm.mem_iff.mp hm)) (by rwa [List.append_nil])
  rw [List.append_nil] at hfold
  exact hfold

/-- Candidates that cover characters of their own have spans of their own. -/
theorem edited_eq {group : List Candidate} (hcovers : ∀ m ∈ group, m.Covers text (extent m))
    (hapart : group.Pairwise (Apart extent)) :
    ∃ ordered : List Candidate, ordered.Perm group ∧ InOrder extent ordered ∧
      edited group (String.ofList text) = .ok (String.ofList (patched extent text ordered)) := by
  refine edited_eq_of_marks (fun m hm => (hcovers m hm).marks) hapart ?_
  refine hapart.imp_of_mem fun {m k} hm hk hmk hspan => ?_
  have hcm := hcovers m hm
  have hck := hcovers k hk
  have hstart := hck.marks.start
  rw [← hspan] at hstart
  have hsame := hcm.marks.start.unique hstart
  have hm_ne := hcm.nonempty
  have hk_ne := hck.nonempty
  rcases hmk with hle | hle <;> omega

/-! ### The files of a batch -/

theorem mem_paths {batch : List Candidate} {p : Path} :
    p ∈ paths batch ↔ ∃ m ∈ batch, m.file.path = p := by
  rw [paths, List.mem_eraseDups, List.mem_map]

theorem mem_within {batch : List Candidate} {p : Path} :
    m ∈ within batch p ↔ m ∈ batch ∧ m.file.path = p := by
  rw [within, List.mem_filter, beq_iff_eq]

/-- The text that a file's candidates agree on is the one edited. -/
theorem newText_eq {batch : List Candidate} {p : Path} (hm : m ∈ within batch p)
    (h : ∀ k ∈ within batch p, k.file.code = m.file.code) :
    newText batch p = edited (within batch p) m.file.code := by
  obtain ⟨first, rest, hgroup⟩ := List.exists_cons_of_ne_nil (List.ne_nil_of_mem hm)
  have hfirst := h first (by rw [hgroup]; exact List.mem_cons_self)
  simp only [newText, hgroup, List.head?_cons, Option.map_some, Option.getD_some, hfirst]

/-- Leaving out others does not change which of two comes first. -/
theorem idxOf_lt_of_filter {keep : Path → Bool} {p q : Path} (hp : keep p = true)
    (hq : keep q = true) (ps : List Path)
    (h : (ps.filter keep).idxOf p < (ps.filter keep).idxOf q) : ps.idxOf p < ps.idxOf q := by
  induction ps with
  | nil => simp at h
  | cons r rest ih =>
      rw [List.filter_cons] at h
      split at h
      · grind
      · next hr =>
          have hrp : (r == p) = false := beq_false_of_ne fun heq => hr (heq ▸ hp)
          have hrq : (r == q) = false := beq_false_of_ne fun heq => hr (heq ▸ hq)
          rw [List.idxOf_cons, List.idxOf_cons, hrp, hrq]
          exact Nat.succ_lt_succ (ih h)

/-- What is left without repetitions is in the order of first occurrence. -/
theorem pairwise_eraseDups (ps : List Path) :
    ps.eraseDups.Pairwise fun p q => ps.idxOf p < ps.idxOf q := by
  induction hlen : ps.length using Nat.strong_induction_on generalizing ps with
  | _ n ih =>
      cases ps with
      | nil => exact List.Pairwise.nil
      | cons p rest =>
          have hshort := List.length_filter_le (fun q => !q == p) rest
          rw [List.length_cons] at hlen
          have hkept : ∀ q ∈ (rest.filter fun q => !q == p).eraseDups, (!q == p) = true := by
            intro q hq
            exact (List.mem_filter.mp (List.mem_eraseDups.mp hq)).2
          have hlater : ∀ q, (!q == p) = true → (p :: rest).idxOf q = rest.idxOf q + 1 := by
            intro q hq
            rw [Bool.not_eq_true', beq_eq_false_iff_ne] at hq
            exact List.idxOf_cons_ne rest hq.symm
          rw [List.eraseDups_cons, List.pairwise_cons]
          refine ⟨?_, (ih _ (by omega) (rest.filter fun q => !q == p) rfl).imp_of_mem ?_⟩
          · intro q hq
            rw [hlater q (hkept q hq), List.idxOf_cons_self]
            exact Nat.succ_pos _
          · intro q r hq hr hlt
            rw [hlater q (hkept q hq), hlater r (hkept r hr)]
            exact Nat.succ_lt_succ (idxOf_lt_of_filter (hkept q hq) (hkept r hr) rest hlt)

/-- The files of a batch are in the order in which its candidates first name them. -/
theorem paths_inOrder (batch : List Candidate) :
    (paths batch).Pairwise fun p q =>
      (batch.map fun m => m.file.path).idxOf p < (batch.map fun m => m.file.path).idxOf q :=
  pairwise_eraseDups _

theorem paths_nodup (batch : List Candidate) : (paths batch).Nodup := by
  refine (paths_inOrder batch).imp fun {p q} hlt heq => ?_
  rw [heq] at hlt
  exact Nat.lt_irrefl _ hlt

/-- Every candidate of a batch belongs to one of its files. -/
theorem sum_within (batch : List Candidate) :
    ((paths batch).map fun p => (within batch p).length).sum = batch.length := by
  have hcount : ∀ p, (within batch p).length = (batch.map fun m => m.file.path).count p := by
    intro p
    rw [within, ← List.countP_eq_length_filter, List.count, List.countP_map]
    rfl
  have hperm : (paths batch).Perm (batch.map fun m => m.file.path).dedup := by
    refine (List.perm_ext_iff_of_nodup (paths_nodup batch) (List.nodup_dedup _)).mpr fun p => ?_
    rw [paths, List.mem_eraseDups, List.mem_dedup]
  simp only [hcount]
  rw [(hperm.map _).sum_eq, List.sum_map_count_dedup_eq_length, List.length_map]

/-! ### Files, one after the other -/

section Writing

variable {σ : Type} {write : Writer σ} {batch : List Candidate} {paths : List Path}

theorem applyAt_eq_ok {p : Path} {s s' : σ} :
    applyAt write batch p s = (.ok (), s') ↔
      ∃ code, newText batch p = .ok code ∧ write p (encode code.toList) s = (.ok (), s') := by
  unfold applyAt storeCode
  cases newText batch p with
  | error e => simp
  | ok code =>
      cases hwrite : write p (encode code.toList) s with
      | mk answer after => cases answer <;> simp [hwrite]

theorem applyTo_cons_eq_ok {p : Path} {s s' : σ} :
    applyTo write batch (p :: paths) s = (.ok (), s') ↔
      ∃ between, applyAt write batch p s = (.ok (), between) ∧
        applyTo write batch paths between = (.ok (), s') := by
  rw [applyTo]
  obtain ⟨answer, after⟩ := applyAt write batch p s
  cases answer <;> simp

theorem apply_eq_ok {ps : List Path} {s s' : σ} :
    apply write batch s = (.ok ps, s') ↔
      ps = Batch.paths batch ∧ applyTo write batch (Batch.paths batch) s = (.ok (), s') := by
  unfold apply
  obtain ⟨answer, after⟩ := applyTo write batch (Batch.paths batch) s
  cases answer <;> simp [eq_comm]

/-- Writes one file after the other, up to the first that cannot be written. -/
def writeAll (write : Writer σ) : List (Path × List UInt8) → σ → Except OsError Unit × σ
  | [], s => (.ok (), s)
  | (p, bytes) :: rest, s =>
    match write p bytes s with
    | (.ok (), s) => writeAll write rest s
    | (.error e, s) => (.error e, s)

theorem writeAll_cons_eq_ok {p : Path} {bytes : List UInt8} {files : List (Path × List UInt8)}
    {s s' : σ} :
    writeAll write ((p, bytes) :: files) s = (.ok (), s') ↔
      ∃ between, write p bytes s = (.ok (), between) ∧
        writeAll write files between = (.ok (), s') := by
  rw [writeAll]
  obtain ⟨answer, after⟩ := write p bytes s
  cases answer <;> simp

/-- Where every new text exists, making the edits is writing the new texts. -/
theorem applyTo_eq_ok_iff {code : Path → String}
    (h : ∀ p ∈ paths, newText batch p = .ok (code p)) :
    ∀ s s' : σ, applyTo write batch paths s = (.ok (), s') ↔
      writeAll write (paths.map fun p => (p, encode (code p).toList)) s = (.ok (), s') := by
  induction paths with
  | nil =>
      intro s s'
      simp [applyTo, writeAll]
  | cons p rest ih =>
      intro s s'
      have hp := h p List.mem_cons_self
      have hrest := ih fun q hq => h q (List.mem_cons_of_mem p hq)
      rw [List.map_cons, applyTo_cons_eq_ok, writeAll_cons_eq_ok]
      simp only [applyAt_eq_ok, hp, Except.ok.injEq, exists_eq_left', hrest]

theorem apply_eq_ok_iff {code : Path → String}
    (h : ∀ p ∈ Batch.paths batch, newText batch p = .ok (code p)) {s s' : σ} :
    apply write batch s = (.ok (Batch.paths batch), s') ↔
      writeAll write ((Batch.paths batch).map fun p => (p, encode (code p).toList)) s
        = (.ok (), s') := by
  rw [apply_eq_ok, applyTo_eq_ok_iff h]
  exact and_iff_right rfl

/-- Where every new text exists, only writing can fail. -/
theorem applyTo_ne_region (h : ∀ p ∈ paths, ∃ code, newText batch p = .ok code) :
    ∀ (s : σ) (e : RegionError), (applyTo write batch paths s).1 ≠ .error (.region e) := by
  induction paths with
  | nil =>
      intro s e
      simp [applyTo]
  | cons p rest ih =>
      intro s e
      obtain ⟨code, hcode⟩ := h p List.mem_cons_self
      simp only [applyTo, applyAt, hcode]
      obtain ⟨answer, after⟩ := storeCode write p code s
      cases answer with
      | ok _ => exact ih (fun q hq => h q (List.mem_cons_of_mem p hq)) after e
      | error err => simp

theorem apply_ne_region (h : ∀ p ∈ Batch.paths batch, ∃ code, newText batch p = .ok code) (s : σ)
    (e : RegionError) : (apply write batch s).1 ≠ .error (.region e) := by
  have hne : (applyTo write batch (Batch.paths batch) s).1 ≠ .error (.region e) :=
    applyTo_ne_region h s e
  unfold apply
  cases happly : applyTo write batch (Batch.paths batch) s with
  | mk answer after =>
      rw [happly] at hne
      cases answer with
      | ok _ => simp
      | error err => exact fun heq => hne (congrArg Except.error (Except.error.inj heq))

/-- Where a batch ends: as each write that succeeds leaves things, or as the one that fails does. -/
def EndsWith (I F : σ → Prop) {α : Type} : Except ApplyError α × σ → Prop
  | (.ok _, s) => I s
  | (.error (.region _), s) => I s
  | (.error (.source _), s) => F s

theorem applyTo_endsWith {I F : σ → Prop}
    (hok : ∀ p bytes s s', I s → write p bytes s = (.ok (), s') → I s')
    (herror : ∀ p bytes s e s', I s → write p bytes s = (.error e, s') → F s') :
    ∀ s : σ, I s → EndsWith I F (applyTo write batch paths s) := by
  induction paths with
  | nil =>
      intro s hs
      exact hs
  | cons p rest ih =>
      intro s hs
      simp only [applyTo, applyAt]
      cases newText batch p with
      | error e => exact hs
      | ok code =>
          simp only [storeCode]
          cases hrun : write p (encode code.toList) s with
          | mk answer after =>
              cases answer with
              | ok _ => exact ih after (hok p _ s after hs hrun)
              | error e => exact herror p _ s e after hs hrun

theorem apply_endsWith {I F : σ → Prop}
    (hok : ∀ p bytes s s', I s → write p bytes s = (.ok (), s') → I s')
    (herror : ∀ p bytes s e s', I s → write p bytes s = (.error e, s') → F s') {s : σ} (hs : I s) :
    EndsWith I F (apply write batch s) := by
  have hends : EndsWith I F (applyTo write batch (Batch.paths batch) s) :=
    applyTo_endsWith hok herror s hs
  unfold apply
  cases happly : applyTo write batch (Batch.paths batch) s with
  | mk answer after =>
      rw [happly] at hends
      cases answer with
      | ok _ => exact hends
      | error e => cases e <;> exact hends

/-- What every write keeps, a batch keeps, however it ends. -/
theorem apply_keeps {K : σ → Prop} (hwrite : ∀ p bytes s, K s → K (write p bytes s).2) {s s' : σ}
    {answer : Except ApplyError (List Path)} (h : apply write batch s = (answer, s')) (hs : K s) :
    K s' := by
  have hkept : ∀ {p bytes s r s'}, K s → write p bytes s = (r, s') → K s' := by
    intro p bytes s r s' hs hrun
    have hafter := hwrite p bytes s hs
    rwa [hrun] at hafter
  have hends : EndsWith K K (apply write batch s) :=
    apply_endsWith (fun _ _ _ _ => hkept) (fun _ _ _ _ _ => hkept) hs
  rw [h] at hends
  cases answer with
  | ok _ => exact hends
  | error e => cases e <;> exact hends

/-- A writer that, when it reports success, has replaced the bytes of the file in the workspace
that is part of its state. -/
def Honest (view : σ → Workspace) (write : Writer σ) : Prop :=
  ∀ p bytes s s', write p bytes s = (.ok (), s') → (view s).write p bytes = .ok (view s')

theorem writer_honest : Honest id Workspace.writer := by
  intro p bytes w w' h
  unfold Workspace.writer at h
  split at h
  · next w₁ hwrite =>
      rw [id_eq, id_eq, hwrite, (Prod.mk.inj h).2]
  · cases (Prod.mk.inj h).1

/-- Whoever writes honestly leaves the files as the plain writer does. -/
theorem applyTo_honest {view : σ → Workspace} (hwrite : Honest view write) :
    ∀ s s' : σ, applyTo write batch paths s = (.ok (), s') →
      applyTo Workspace.writer batch paths (view s) = (.ok (), view s') := by
  induction paths with
  | nil =>
      intro s s' h
      rw [applyTo] at h
      rw [applyTo, (Prod.mk.inj h).2]
  | cons p rest ih =>
      intro s s' h
      obtain ⟨between, hfirst, hrest⟩ := applyTo_cons_eq_ok.mp h
      obtain ⟨code, hcode, hstore⟩ := applyAt_eq_ok.mp hfirst
      refine applyTo_cons_eq_ok.mpr ⟨view between, applyAt_eq_ok.mpr ⟨code, hcode, ?_⟩, ?_⟩
      · rw [Workspace.writer, hwrite p _ s between hstore]
      · exact ih between s' hrest

theorem apply_honest {view : σ → Workspace} (hwrite : Honest view write) {s s' : σ}
    {ps : List Path} (h : apply write batch s = (.ok ps, s')) :
    apply Workspace.writer batch (view s) = (.ok ps, view s') := by
  obtain ⟨hps, happly⟩ := apply_eq_ok.mp h
  exact apply_eq_ok.mpr ⟨hps, applyTo_honest hwrite s s' happly⟩

end Writing

/-- Files that can be written, at names of their own, are all written and nothing else changes. -/
theorem writeAll_writer {place : Path → List String} (files : List (Path × List UInt8)) :
    ∀ w : Workspace, (∀ f ∈ files, w.Accepts f.1 (place f.1)) →
      files.Pairwise (fun f g => place f.1 ≠ place g.1) →
      ∃ w', writeAll Workspace.writer files w = (.ok (), w') ∧ w'.base = w.base ∧
        (∀ q names, w.locate q = .ok names → w'.locate q = .ok names) ∧
        (∀ f ∈ files, w'.Holds f.1 (place f.1) f.2) ∧
        ∀ names, (∀ f ∈ files, place f.1 ≠ names) → w'.entry? names = w.entry? names := by
  induction files with
  | nil =>
      intro w _ _
      exact ⟨w, rfl, rfl, fun _ _ h => h, fun f hf => absurd hf List.not_mem_nil, fun _ _ => rfl⟩
  | cons f rest ih =>
      obtain ⟨p, bytes⟩ := f
      intro w haccepts hplace
      obtain ⟨hp, hrest⟩ := List.pairwise_cons.mp hplace
      have haccept : w.Accepts p (place p) := haccepts _ List.mem_cons_self
      have hfirst : Workspace.writer p bytes w = (.ok (), w.put (place p) (.file bytes)) := by
        rw [Workspace.writer, haccept.write]
      have hlocate := (Workspace.write_keeps_files (haccept.write bytes)).1
      obtain ⟨w', hw', hbase, hkept, hholds, hframe⟩ :=
        ih _ (fun g hg => (haccepts g (List.mem_cons_of_mem _ hg)).put haccept bytes) hrest
      refine ⟨w', writeAll_cons_eq_ok.mpr ⟨_, hfirst, hw'⟩, hbase, ?_, ?_, ?_⟩
      · intro q names hq
        exact hkept q names (hlocate q names hq)
      · intro g hg
        rcases List.mem_cons.mp hg with rfl | hg
        · have hput := haccept.holds_put bytes
          refine ⟨hkept p _ hput.1, ?_⟩
          rw [hframe (place p) fun g hg => (hp g hg).symm]
          exact hput.2
        · exact hholds g hg
      · intro names hnames
        rw [hframe names fun g hg => hnames g (List.mem_cons_of_mem _ hg)]
        exact Workspace.entry?_put_of_ne (hnames _ List.mem_cons_self).symm _

/-- Files that exist, at names of their own, all get their new text and nothing else changes. -/
theorem applyTo_writer {batch : List Candidate} {place : Path → List String} {code : Path → String}
    (paths : List Path) :
    ∀ w : Workspace, (∀ p ∈ paths, newText batch p = .ok (code p)) →
      (∀ p ∈ paths, ∃ old, w.Holds p (place p) old) →
      paths.Pairwise (fun p q => place p ≠ place q) →
      ∃ w', applyTo Workspace.writer batch paths w = (.ok (), w') ∧ w.Alike w' ∧
        (∀ p ∈ paths, w'.Holds p (place p) (encode (code p).toList)) ∧
        ∀ names, (∀ p ∈ paths, place p ≠ names) → w'.entry? names = w.entry? names := by
  intro w hcode hfile hplace
  obtain ⟨w', hwrite, hbase, -, hholds, hframe⟩ := writeAll_writer
    (paths.map fun p => (p, encode (code p).toList)) w
    (List.forall_mem_map.mpr fun p hp => (hfile p hp).choose_spec.accepts)
    (List.pairwise_map.mpr hplace)
  rw [List.forall_mem_map] at hholds
  simp only [List.forall_mem_map] at hframe
  refine ⟨w', (applyTo_eq_ok_iff hcode w w').mpr hwrite, ?_, hholds, hframe⟩
  refine Workspace.alike_of_files hbase fun names => ?_
  by_cases hnames : ∃ p ∈ paths, place p = names
  · obtain ⟨p, hp, rfl⟩ := hnames
    obtain ⟨old, hold⟩ := hfile p hp
    exact Or.inr ⟨⟨_, (hholds p hp).2⟩, old, hold.2⟩
  · exact Or.inl (hframe names fun p hp heq => hnames ⟨p, hp, heq⟩)

/-- Files stay files, and those that are written are there, whether or not they existed. -/
theorem applyTo_keeps_files {batch : List Candidate} (paths : List Path) :
    ∀ w w' : Workspace, applyTo Workspace.writer batch paths w = (.ok (), w') →
      (∀ names, (w.bytes? names).isSome = true → (w'.bytes? names).isSome = true) ∧
      ∀ p ∈ paths, ∀ names, w.locate p = .ok names → (w'.bytes? names).isSome = true := by
  induction paths with
  | nil =>
      intro w w' h
      obtain rfl : w = w' := (Prod.mk.inj h).2
      exact ⟨fun _ hfile => hfile, fun p hp => absurd hp List.not_mem_nil⟩
  | cons p rest ih =>
      intro w w' h
      obtain ⟨between, hfirst, hrest⟩ := applyTo_cons_eq_ok.mp h
      obtain ⟨code, -, hwrite⟩ := applyAt_eq_ok.mp hfirst
      obtain ⟨hpaths, hfiles, hwritten⟩ :=
        Workspace.write_keeps_files (writer_honest p _ w between hwrite)
      obtain ⟨hfiles', hwritten'⟩ := ih between w' hrest
      refine ⟨fun names hfile => hfiles' names (hfiles names hfile), ?_⟩
      intro q hq names hnames
      rcases List.mem_cons.mp hq with rfl | hq
      · exact hfiles' names (hwritten names hnames)
      · exact hwritten' q hq names (hpaths q names hnames)

end Batch

end Tighten
