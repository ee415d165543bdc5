import Tighten.Proofs.Substitution

/-
A batch that fails.

Files are dealt with in the order in which the batch first names them, and the whole new text of a
file is there before the file is opened.  So a batch that fails does so at one path: every path
before it was written, with all edits of its file, and neither that path nor any after it was.
Nothing is asked of the spans.  They may lie outside the text, overlap or be given twice.

Two paths can lead to one file.  What such a file holds is then the text of one of the paths that
lead there, and still a complete one.
-/
namespace Tighten

open Text.Utf8 (encode)

namespace Workspace

variable {w w' : Workspace} {ps : List Path} {bytes : Path → List UInt8}

/-- The files that paths of a list lead to hold what one of these paths was to hold, and everything
else is as it was. -/
structure Overwritten (w : Workspace) (ps : List Path) (bytes : Path → List UInt8)
    (w' : Workspace) : Prop where
  locate : ∀ q names, w'.locate q = .ok names ↔ w.locate q = .ok names
  written : ∀ p ∈ ps, ∃ names, w.locate p = .ok names ∧ ∃ q ∈ ps, w.locate q = .ok names ∧
    w'.entry? names = some (.file (bytes q))
  untouched : ∀ names, (∀ p ∈ ps, w.locate p ≠ .ok names) → w'.entry? names = w.entry? names

namespace Overwritten

theorem nil (w : Workspace) (bytes : Path → List UInt8) : w.Overwritten [] bytes w where
  locate := fun _ _ => Iff.rfl
  written := fun _ hp => absurd hp List.not_mem_nil
  untouched := fun _ _ => rfl

/-- One more file is written first. -/
theorem cons {between : Workspace} {p : Path} (h : w.write p (bytes p) = .ok between)
    (hrest : between.Overwritten ps bytes w') : w.Overwritten (p :: ps) bytes w' := by
  obtain ⟨place, hplace, hself, -, hothers⟩ := entry?_of_write h
  have hlocate : ∀ q names, between.locate q = .ok names ↔ w.locate q = .ok names :=
    fun q names => locate_of_write h
  -- a path of the rest stands for one of the whole list
  have hlater : ∀ names, (∃ q ∈ ps, between.locate q = .ok names ∧
      w'.entry? names = some (.file (bytes q))) → ∃ q ∈ p :: ps, w.locate q = .ok names ∧
        w'.entry? names = some (.file (bytes q)) := by
    rintro names ⟨q, hq, hqn, hentry⟩
    exact ⟨q, List.mem_cons_of_mem p hq, (hlocate q names).mp hqn, hentry⟩
  refine ⟨?_, ?_, ?_⟩
  · intro q names
    rw [hrest.locate, hlocate]
  · intro q hq
    rcases List.mem_cons.mp hq with rfl | hq
    · refine ⟨place, hplace, ?_⟩
      by_cases hagain : ∃ r ∈ ps, between.locate r = .ok place
      · obtain ⟨r, hr, hrn⟩ := hagain
        obtain ⟨names, hnames, hwritten⟩ := hrest.written r hr
        rw [hrn] at hnames
        obtain rfl := Except.ok.inj hnames
        exact hlater _ hwritten
      · have hkept := hrest.untouched place fun r hr hrn => hagain ⟨r, hr, hrn⟩
        exact ⟨q, List.mem_cons_self, hplace, by rw [hkept, hself]⟩
    · obtain ⟨names, hnames, hwritten⟩ := hrest.written q hq
      exact ⟨names, (hlocate q names).mp hnames, hlater names hwritten⟩
  · intro names hnames
    have hne : names ≠ place := fun heq => hnames p List.mem_cons_self (heq ▸ hplace)
    rw [hrest.untouched names fun q hq hqn =>
      hnames q (List.mem_cons_of_mem p hq) ((hlocate q names).mp hqn), hothers names hne]

/-- A path that shares its file with no other one of the list is written. -/
theorem read_eq_of_mem (h : w.Overwritten ps bytes w') {p : Path} (hp : p ∈ ps)
    (halone : ∀ q ∈ ps, w.locate q = w.locate p → q = p) : w'.read p = .ok (bytes p) := by
  obtain ⟨names, hnames, q, hq, hqn, hentry⟩ := h.written p hp
  obtain rfl := halone q hq (hqn.trans hnames.symm)
  exact read_eq_ok.mpr ⟨names, (h.locate q names).mpr hnames, hentry⟩

/-- A path that shares its file with none of the list is as it was. -/
theorem read_iff (h : w.Overwritten ps bytes w') {p : Path}
    (halone : ∀ q ∈ ps, w.locate q ≠ w.locate p) (held : List UInt8) :
    w'.read p = .ok held ↔ w.read p = .ok held := by
  simp only [read_eq_ok, Holds, h.locate]
  refine exists_congr fun names => and_congr_right fun hnames => ?_
  rw [h.untouched names fun q hq hqn => halone q hq (hqn.trans hnames.symm)]

end Overwritten

end Workspace

namespace Batch

variable {σ : Type} {view : σ → Workspace} {write : Writer σ} {batch : List Candidate}
  {p : Path} {s s' : σ}

/-! ### Complete texts -/

/-- The text is that of a file in which every edit of the batch has been made, each once, from the
last span to the first. -/
def Complete (batch : List Candidate) (p : Path) (text : String) : Prop :=
  ∃ (first : Candidate) (order : List Candidate),
    (within batch p).head? = some first ∧ order.Perm (within batch p) ∧
    order.Pairwise (fun m k => m.span.before k.span = false) ∧
    order.foldlM (fun code m => m.applyTo code) first.file.code = .ok text

theorem complete_of_newText {text : String} (hp : p ∈ paths batch)
    (h : newText batch p = .ok text) : Complete batch p text := by
  obtain ⟨m, hm, hpath⟩ := mem_paths.mp hp
  have hne : within batch p ≠ [] := List.ne_nil_of_mem (mem_within.mpr ⟨hm, hpath⟩)
  obtain ⟨first, rest, hgroup⟩ := List.exists_cons_of_ne_nil hne
  have hhead : (within batch p).head? = some first := by rw [hgroup, List.head?_cons]
  refine ⟨first, lastFirst (within batch p), hhead, List.mergeSort_perm _ _, ?_, ?_⟩
  · refine (pairwise_lastFirst (within batch p)).imp fun {m k} hmk => ?_
    rwa [Bool.not_eq_true'] at hmk
  · simpa only [newText, edited, hhead, Option.map_some, Option.getD_some] using h

/-! ### Where a batch fails -/

theorem applyAt_eq_error {e : ApplyError} :
    applyAt write batch p s = (.error e, s') ↔
      (∃ r, e = .region r ∧ newText batch p = .error r ∧ s' = s) ∨
      ∃ os text, e = .source (.unwritable p os) ∧ newText batch p = .ok text ∧
        write p (encode text.toList) s = (.error os, s') := by
  unfold applyAt storeCode
  cases newText batch p with
  | error r => simp [eq_comm]
  | ok text =>
      cases hwrite : write p (encode text.toList) s with
      | mk answer after => cases answer <;> simp [hwrite, eq_comm]

/-- A batch fails at one path, after the paths before it. -/
theorem applyTo_eq_error {e : ApplyError} {ps : List Path} :
    ∀ s : σ, applyTo write batch ps s = (.error e, s') → ∃ front p back between,
      ps = front ++ p :: back ∧ applyTo write batch front s = (.ok (), between) ∧
        applyAt write batch p between = (.error e, s') := by
  induction ps with
  | nil =>
      intro s h
      cases (Prod.mk.inj h).1
  | cons q rest ih =>
      intro s h
      rw [applyTo] at h
      cases hfirst : applyAt write batch q s with
      | mk answer after =>
          rw [hfirst] at h
          cases answer with
          | error e' => exact ⟨[], q, rest, s, rfl, rfl, hfirst.trans h⟩
          | ok _ =>
              obtain ⟨front, p, back, between, rfl, hfront, hp⟩ := ih after h
              exact ⟨q :: front, p, back, between, rfl,
                applyTo_cons_eq_ok.mpr ⟨after, hfirst, hfront⟩, hp⟩

theorem apply_eq_error {e : ApplyError} :
    apply write batch s = (.error e, s') ↔
      applyTo write batch (paths batch) s = (.error e, s') := by
  unfold apply
  obtain ⟨answer, after⟩ := applyTo write batch (paths batch) s
  cases answer <;> simp

/-- Paths that were all dealt with have new texts. -/
theorem exists_newText_of_applyTo {ps : List Path} :
    ∀ s : σ, applyTo write batch ps s = (.ok (), s') → ∀ p ∈ ps, ∃ text,
      newText batch p = .ok text := by
  induction ps with
  | nil =>
      intro s _ p hp
      exact absurd hp List.not_mem_nil
  | cons q rest ih =>
      intro s h p hp
      obtain ⟨between, hfirst, hrest⟩ := applyTo_cons_eq_ok.mp h
      obtain ⟨text, htext, -⟩ := applyAt_eq_ok.mp hfirst
      rcases List.mem_cons.mp hp with rfl | hp
      · exact ⟨text, htext⟩
      · exact ih between hrest p hp

/-! ### What is in the files then -/

/-- Whoever writes honestly leaves, after several writes, what was written. -/
theorem overwritten_of_writeAll (hwrite : Honest view write) {ps : List Path}
    {bytes : Path → List UInt8} :
    ∀ s : σ, writeAll write (ps.map fun p => (p, bytes p)) s = (.ok (), s') →
      (view s).Overwritten ps bytes (view s') := by
  induction ps with
  | nil =>
      intro s h
      obtain rfl : s = s' := (Prod.mk.inj h).2
      exact .nil (view s) bytes
  | cons p rest ih =>
      intro s h
      rw [List.map_cons, writeAll_cons_eq_ok] at h
      obtain ⟨between, hfirst, hrest⟩ := h
      exact .cons (hwrite p _ s between hfirst) (ih between hrest)

/-- A writer that, when it reports an error, has left all files as they were. -/
def Cautious (view : σ → Workspace) (write : Writer σ) : Prop :=
  ∀ p bytes s e s', write p bytes s = (.error e, s') → view s' = view s

theorem writer_cautious : Cautious id Workspace.writer := by
  intro p bytes w e w' h
  unfold Workspace.writer at h
  split at h
  · cases (Prod.mk.inj h).1
  · exact (Prod.mk.inj h).2.symm

/-- **A batch that fails leaves no file half edited.**  It fails at one of its paths.  Those before
it are written with all edits of their files, and what no path before it leads to is as it was.  A
region that does not fit is found before the file is opened.

Only what is read back at a single path depends on where the paths lead: at one of those written it
is that path's own text if no other of them leads to the same file, and at one of the others it is
what was read before if none of those written leads there.  What the files hold, `Overwritten` says
without any such condition. -/
theorem apply_stops (hwrite : Honest view write) (hcautious : Cautious view write) {e : ApplyError}
    (h : apply write batch s = (.error e, s')) :
    ∃ (front : List Path) (p : Path) (back : List Path) (text : Path → String),
      paths batch = front ++ p :: back ∧
      ((paths batch).Pairwise fun q r => (batch.map fun m => m.file.path).idxOf q <
        (batch.map fun m => m.file.path).idxOf r) ∧
      (∀ q ∈ front, Complete batch q (text q)) ∧
      (view s).Overwritten front (fun q => encode (text q).toList) (view s') ∧
      (∀ q ∈ front, (∀ r ∈ front, (view s).locate r = (view s).locate q → r = q) →
        (view s').read q = .ok (encode (text q).toList)) ∧
      (∀ q ∈ p :: back, (∀ r ∈ front, (view s).locate r ≠ (view s).locate q) →
        ∀ bytes, (view s').read q = .ok bytes ↔ (view s).read q = .ok bytes) ∧
      ∃ between, writeAll write (front.map fun q => (q, encode (text q).toList)) s
          = (.ok (), between) ∧
        ((∃ r, e = .region r ∧ newText batch p = .error r ∧ s' = between) ∨
          ∃ os code, e = .source (.unwritable p os) ∧ Complete batch p code ∧
            write p (encode code.toList) between = (.error os, s')) := by
  obtain ⟨front, p, back, between, hpaths, hfront, hp⟩ := applyTo_eq_error s (apply_eq_error.mp h)
  have hnew := exists_newText_of_applyTo s hfront
  choose! text htext using hnew
  have hwritten := (applyTo_eq_ok_iff htext s between).mp hfront
  have hmem : ∀ q ∈ front, q ∈ paths batch := fun q hq => by
    rw [hpaths]
    exact List.mem_append_left _ hq
  have hpmem : p ∈ paths batch := by
    rw [hpaths]
    exact List.mem_append_right _ List.mem_cons_self
  have hstop : (∃ r, e = .region r ∧ newText batch p = .error r ∧ s' = between) ∨
      ∃ os code, e = .source (.unwritable p os) ∧ newText batch p = .ok code ∧
        write p (encode code.toList) between = (.error os, s') := applyAt_eq_error.mp hp
  -- whichever it was, the files are as the writes before it left them
  have hview : view s' = view between := by
    obtain ⟨r, -, -, rfl⟩ | ⟨os, code, -, -, hrefused⟩ := hstop
    · rfl
    · exact hcautious p _ between os s' hrefused
  have hover : (view s).Overwritten front (fun q => encode (text q).toList) (view s') := by
    rw [hview]
    exact overwritten_of_writeAll hwrite s hwritten
  refine ⟨front, p, back, text, hpaths, paths_inOrder batch,
    fun q hq => complete_of_newText (hmem q hq) (htext q hq), hover,
    fun q hq halone => hover.read_eq_of_mem hq halone,
    fun q _ halone bytes => hover.read_iff halone bytes, between, hwritten, ?_⟩
  refine hstop.imp_right ?_
  rintro ⟨os, code, he, hcode, hrefused⟩
  exact ⟨os, code, he, complete_of_newText hpmem hcode, hrefused⟩

/-- Edits of three files, of which those of the first are apart and that of the second is past the
end of its text. -/
def strayed : List Candidate :=
  let file (name code : String) : SourceFile := ⟨⟨"/", [name]⟩, ⟨"", [name]⟩, code⟩
  [⟨file "a.rs" "\npub a\npub é", .toSuper, .after "\n\n".toList, .after "\n\npub".toList, rfl⟩,
    ⟨file "b.rs" "pub b", .toSelf, .after "\n".toList, .after "\npub".toList, rfl⟩,
    ⟨file "c.rs" "\npub c", .toSelf, .after "\n".toList, .after "\npub".toList, rfl⟩,
    ⟨file "a.rs" "\npub a\npub é", .toInherited, .after "\n".toList, .after "\npub".toList, rfl⟩]

/-- The three files, the last of which is empty. -/
def threeFiles : Workspace where
  base := ⟨"/", []⟩
  entries := [(["a.rs"], .file (encode "\npub a\npub é".toList)),
    (["b.rs"], .file (encode "pub b".toList)), (["c.rs"], .file [])]

theorem newText_strayed : newText strayed ⟨"/", ["a.rs"]⟩ = .ok "\n a\npub(super) é" := by
  have hsorted : lastFirst (within strayed ⟨"/", ["a.rs"]⟩) = within strayed ⟨"/", ["a.rs"]⟩ :=
    List.mergeSort_of_pairwise (by decide +kernel)
  rw [newText, edited, hsorted]
  decide +kernel

/-- The first file gets both of its edits, and the others are left alone. -/
theorem apply_stops_strayed :
    ∃ w' text, apply Workspace.writer strayed threeFiles =
        (.error (.region (.pastLastLine 2 1)), w') ∧
      Complete strayed ⟨"/", ["a.rs"]⟩ text ∧
      w'.read ⟨"/", ["a.rs"]⟩ = .ok (encode text.toList) ∧
      ∀ name ∈ ["b.rs", "c.rs"], ∀ bytes,
        w'.read ⟨"/", [name]⟩ = .ok bytes ↔ threeFiles.read ⟨"/", [name]⟩ = .ok bytes := by
  have hthree : paths strayed = [⟨"/", ["a.rs"]⟩, ⟨"/", ["b.rs"]⟩, ⟨"/", ["c.rs"]⟩] := by decide
  have hwritten : applyAt Workspace.writer strayed ⟨"/", ["a.rs"]⟩ threeFiles =
      (.ok (), threeFiles.put ["a.rs"] (.file (encode "\n a\npub(super) é".toList))) :=
    applyAt_eq_ok.mpr ⟨_, newText_strayed, by decide +kernel⟩
  have hrun : apply Workspace.writer strayed threeFiles = (.error (.region (.pastLastLine 2 1)),
      threeFiles.put ["a.rs"] (.file (encode "\n a\npub(super) é".toList))) := by
    rw [apply_eq_error, hthree, applyTo, hwritten]
    decide +kernel
  obtain ⟨front, p, back, text, hpaths, -, hcomplete, -, hfront, hback, between, -, hstop⟩ :=
    apply_stops writer_honest writer_cautious hrun
  obtain ⟨r, -, hregion, -⟩ | ⟨os, code, he, -⟩ := hstop
  swap
  · cases he
  have hunfit : ∀ q, (newText strayed q).isOk = true → p ≠ q := by
    rintro q hok rfl
    rw [hregion] at hok
    cases hok
  have hfirst : p ≠ ⟨"/", ["a.rs"]⟩ := hunfit _ (by rw [newText_strayed]; rfl)
  have hthird : p ≠ ⟨"/", ["c.rs"]⟩ := hunfit _ (by decide +kernel)
  have hshape : front = [⟨"/", ["a.rs"]⟩] ∧ p :: back = [⟨"/", ["b.rs"]⟩, ⟨"/", ["c.rs"]⟩] := by
    rw [hthree] at hpaths
    rcases front with _ | ⟨x, _ | ⟨y, _ | ⟨z, rest⟩⟩⟩
    · exact absurd (List.cons.inj hpaths).1.symm hfirst
    · obtain ⟨rfl, hrest⟩ := List.cons.inj hpaths
      exact ⟨rfl, hrest.symm⟩
    · have hlast := (List.cons.inj (List.cons.inj hpaths).2).2
      exact absurd (List.cons.inj hlast).1.symm hthird
    · simp at hpaths
  obtain ⟨rfl, hrest⟩ := hshape
  refine ⟨_, text ⟨"/", ["a.rs"]⟩, hrun, hcomplete _ List.mem_cons_self,
    hfront _ List.mem_cons_self (by simp), ?_⟩
  intro name hname
  refine hback ⟨"/", [name]⟩ ?_ ?_
  · rw [hrest]
    simpa using hname
  · have happart : ∀ name ∈ ["b.rs", "c.rs"],
        threeFiles.locate ⟨"/", ["a.rs"]⟩ ≠ threeFiles.locate ⟨"/", [name]⟩ := by decide
    intro q hq
    rw [List.mem_singleton.mp hq]
    exact happart name hname

end Batch

end Tighten
