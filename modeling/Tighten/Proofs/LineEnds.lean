import Tighten.Proofs.FailedBatch
import Tighten.Proofs.Pipeline

/-
Line ends of loaded texts.

Loading drops a carriage return that stands before a newline, in one pass.  Where two of them stand
before a newline, the first one is left there, so the loaded text can still hold such a pair; and
then it is another text once it has been written and loaded again.  Loaded texts are free of pairs
where the files never have two carriage returns before a newline.

What a batch writes is loaded again as it was written where it holds no pair.  That does not follow
from what was loaded: a modifier that goes can leave a carriage return and a newline side by side.
-/
namespace Tighten

open Text.Utf8 (encode decode)

namespace Text

variable {text : List Char}

/-- A newline with a carriage return before it. -/
def crlf : List Char := ['\r', '\n']

theorem crlf_infix_cons₂ {c d : Char} {rest : List Char} :
    crlf <:+: c :: d :: rest ↔ (c = '\r' ∧ d = '\n') ∨ crlf <:+: d :: rest := by
  rw [List.infix_cons_iff, crlf, List.cons_prefix_cons, List.cons_prefix_cons,
    and_iff_left List.nil_prefix, eq_comm, @eq_comm _ '\n' d]

/-- Loading changes exactly the texts with such a newline. -/
theorem dropReturns_eq_self_iff : dropReturns text = text ↔ ¬crlf <:+: text := by
  fun_induction dropReturns text with
  | case1 => simp [crlf]
  | case2 c => simp [crlf, List.infix_cons_iff]
  | case3 c d rest hpair ih =>
      obtain ⟨rfl, rfl⟩ := hpair
      simp [crlf_infix_cons₂]
  | case4 c d rest hpair ih =>
      rw [crlf_infix_cons₂, List.cons.injEq, ih]
      simp [hpair]

theorem newline_prefix_dropReturns :
    ['\n'] <+: dropReturns text ↔ ['\n'] <+: text ∨ crlf <+: text := by
  fun_cases dropReturns text with
  | case1 => simp [crlf]
  | case2 c => simp [crlf]
  | case3 c d rest hpair => simp [crlf, hpair]
  | case4 c d rest hpair =>
      have hno : ¬crlf <+: c :: d :: rest := by
        intro h
        obtain ⟨hc, h⟩ := List.cons_prefix_cons.mp h
        exact hpair ⟨hc.symm, (List.cons_prefix_cons.mp h).1.symm⟩
      simp [hno]

/-- What is left of a carriage return before a newline comes from two of them. -/
theorem crlf_infix_dropReturns : crlf <:+: dropReturns text ↔ '\r' :: crlf <:+: text := by
  fun_induction dropReturns text with
  | case1 => simp [crlf]
  | case2 c => simp [crlf, List.infix_cons_iff]
  | case3 c d rest hpair ih =>
      obtain ⟨rfl, rfl⟩ := hpair
      have hfront : ¬crlf <+: '\n' :: dropReturns rest := by simp [crlf]
      have hfirst : ¬('\r' :: crlf) <+: '\r' :: '\n' :: rest := by simp [crlf]
      have hsecond : ¬('\r' :: crlf) <+: '\n' :: rest := by simp [crlf]
      rw [List.infix_cons_iff, or_iff_right hfront, ih, List.infix_cons_iff, or_iff_right hfirst,
        List.infix_cons_iff, or_iff_right hsecond]
  | case4 c d rest hpair ih =>
      have hfront : crlf <+: c :: dropReturns (d :: rest) ↔ '\r' :: crlf <+: c :: d :: rest := by
        have hdrop : crlf <+: c :: dropReturns (d :: rest) ↔
            '\r' = c ∧ ['\n'] <+: dropReturns (d :: rest) := List.cons_prefix_cons
        have htext : '\r' :: crlf <+: c :: d :: rest ↔ '\r' = c ∧ crlf <+: d :: rest :=
          List.cons_prefix_cons
        rw [hdrop, htext, newline_prefix_dropReturns]
        refine and_congr_right fun hc => or_iff_right fun hd => hpair ⟨hc.symm, ?_⟩
        exact (List.cons_prefix_cons.mp hd).1.symm
      rw [List.infix_cons_iff, hfront, ih, ← List.infix_cons_iff]

end Text

/-! ### Loading what was written -/

namespace SourceFile

variable {w : Workspace} {root relative : Path}

theorem load_of_read {bytes : List UInt8} {text : List Char}
    (hread : w.read (root.join relative) = .ok bytes) (hdecode : decode bytes = .ok text) :
    load w root relative =
      .ok ⟨root.join relative, relative, String.ofList (Text.dropReturns text)⟩ := by
  have hcode : codeOf bytes = .ok (String.ofList (Text.dropReturns text)) := by
    rw [codeOf, hdecode]
    rfl
  simp only [load, bind_eq_ok, mapError_eq_ok, pure_eq_ok]
  exact ⟨bytes, hread, _, hcode, rfl⟩

/-- A text is loaded as it was written if it has no carriage return before a newline, and not
otherwise. -/
theorem load_of_written {code : String}
    (h : w.read (root.join relative) = .ok (encode code.toList)) :
    load w root relative = .ok ⟨root.join relative, relative, code⟩ ↔
      ¬Text.crlf <:+: code.toList := by
  rw [load_of_read h (Text.Utf8.decode_encode _), ← Text.dropReturns_eq_self_iff, Except.ok.injEq,
    SourceFile.mk.injEq]
  constructor
  · rintro ⟨-, -, hcode⟩
    have hchars := congrArg String.toList hcode
    rwa [String.toList_ofList] at hchars
  · intro hcode
    rw [hcode, String.ofList_toList]
    exact ⟨rfl, rfl, rfl⟩

/-- A text can be written wherever a file stands. -/
theorem storeCode_writer {p : Path} {names : List String} (h : w.Accepts p names) (code : String) :
    storeCode Workspace.writer p code w =
      (.ok (), w.put names (.file (encode code.toList))) := by
  rw [storeCode, Workspace.writer, h.write]

end SourceFile

/-- After a batch that was sampled and made, every file of it holds its new text. -/
theorem Pipeline.Sampled.read_of_apply {parser : Parser} {w w' : Workspace} {c : Crate}
    {batch : List Candidate} (h : Pipeline.Sampled parser w c batch) (hw : w.Plain)
    {ps : List Path} (happly : Batch.apply Workspace.writer batch w = (.ok ps, w'))
    {m : Candidate} (hm : m ∈ batch) :
    ∃ code, Batch.newText batch m.file.path = .ok code ∧
      w'.read m.file.path = .ok (encode code.toList) := by
  have hdone := (Batch.apply_eq_ok.mp happly).2
  have hnew := Batch.exists_newText_of_applyTo w hdone
  choose! code hcode using hnew
  have hwritten : w.Overwritten (Batch.paths batch) (fun p => encode (code p).toList) w' :=
    Batch.overwritten_of_writeAll Batch.writer_honest w
      ((Batch.applyTo_eq_ok_iff hcode w w').mp hdone)
  have hmem : m.file.path ∈ Batch.paths batch := Batch.mem_paths.mpr ⟨m, hm, rfl⟩
  refine ⟨code m.file.path, hcode _ hmem, hwritten.read_eq_of_mem hmem ?_⟩
  intro q hq hlocate
  obtain ⟨k, hk, rfl⟩ := Batch.mem_paths.mp hq
  obtain ⟨names, hnames, -⟩ := hwritten.written _ hmem
  by_contra hne
  exact h.locate_ne hw hk hm hne (hlocate.trans hnames) hnames

namespace SourceFile

/-- **Which texts survive being written.**  A text is loaded without a carriage return before a
newline exactly where the file has no two of them there; and exactly then it is loaded again once it
has been written back.  What a batch writes to the file is loaded next exactly where it has no
carriage return before a newline. -/
theorem load_normalised {w : Workspace} {root relative : Path} {bytes : List UInt8}
    {text : List Char} (hread : w.read (root.join relative) = .ok bytes)
    (hdecode : decode bytes = .ok text) :
    ∃ file, load w root relative = .ok file ∧
      (Text.crlf <:+: file.code.toList ↔ '\r' :: Text.crlf <:+: text) ∧
      (∃ w', storeCode Workspace.writer file.path file.code w = (.ok (), w') ∧
        (load w' root relative = .ok file ↔ ¬('\r' :: Text.crlf) <:+: text)) ∧
      ∀ (parser : Parser) (batch : List Candidate) (ps : List Path) (w' : Workspace),
        w.Plain → Pipeline.Sampled parser w ⟨root⟩ batch → file ∈ batch.map Candidate.file →
        Batch.apply Workspace.writer batch w = (.ok ps, w') →
        ∃ code, Batch.newText batch file.path = .ok code ∧
          (load w' root relative = .ok { file with code } ↔ ¬Text.crlf <:+: code.toList) := by
  have hload := load_of_read hread hdecode
  have hpair : Text.crlf <:+: (String.ofList (Text.dropReturns text)).toList ↔
      '\r' :: Text.crlf <:+: text := by
    rw [String.toList_ofList, Text.crlf_infix_dropReturns]
  refine ⟨_, hload, hpair, ?_, ?_⟩
  · obtain ⟨names, hholds⟩ := Workspace.read_eq_ok.mp hread
    refine ⟨_, storeCode_writer hholds.accepts _, ?_⟩
    rw [← hpair]
    exact load_of_written (Workspace.read_eq_ok.mpr ⟨names, hholds.accepts.holds_put _⟩)
  · intro parser batch ps w' hw hsampled hfile happly
    obtain ⟨m, hm, hmfile⟩ := List.mem_map.mp hfile
    obtain ⟨code, hcode, hwritten⟩ := hsampled.read_of_apply hw happly hm
    rw [hmfile] at hcode hwritten
    exact ⟨code, hcode, load_of_written hwritten⟩

/-- The small crate with another text in its one source file. -/
def oneFile (text : String) : Workspace where
  base := Sampling.smallCrate.root
  entries := [([manifestName], .file []), ([sourceDirectory], .directory),
    ([sourceDirectory, "lib.rs"], .file (encode text.toList))]

/-- The path of the source file. -/
def libPath : Path := Path.ofNames [sourceDirectory, "lib.rs"]

/-- A source file that has at most one carriage return before each newline. -/
def mixedEnds : Workspace := oneFile "pub fn a() {}\r\n\r\n\r"

/-- Its text comes back once it has been written, and so does what a batch makes of it. -/
theorem load_normalised_mixedEnds :
    ∃ file w' batch w'' code, load mixedEnds Sampling.smallCrate.root libPath = .ok file ∧
      ¬Text.crlf <:+: file.code.toList ∧
      storeCode Workspace.writer file.path file.code mixedEnds = (.ok (), w') ∧
      load w' Sampling.smallCrate.root libPath = .ok file ∧
      (Sampling.sample Rust.parse Sampling.first mixedEnds Sampling.smallCrate 1 1 ()).batch =
        .ok batch ∧
      Batch.apply Workspace.writer batch mixedEnds = (.ok [file.path], w'') ∧
      load w'' Sampling.smallCrate.root libPath = .ok { file with code } := by
  have hsingle : ¬('\r' :: Text.crlf) <:+: "pub fn a() {}\r\n\r\n\r".toList := by decide +kernel
  have hread : mixedEnds.read (Sampling.smallCrate.root.join libPath) =
      .ok (encode "pub fn a() {}\r\n\r\n\r".toList) := by decide +kernel
  obtain ⟨file, hload, hpair, ⟨w', hstore, hagain⟩, hbatches⟩ :=
    load_normalised hread (Text.Utf8.decode_encode _)
  have hfile : file = ⟨Sampling.smallCrate.root.join libPath, libPath, "pub fn a() {}\n\n\r"⟩ :=
    Except.ok.inj (hload.symm.trans (by decide +kernel))
  have heval : ((Sampling.sample Rust.parse Sampling.first mixedEnds Sampling.smallCrate
      1 1 ()).batch.toOption.map fun batch => (batch.map Candidate.file,
        (Batch.apply Workspace.writer batch mixedEnds).1,
        (Batch.newText batch file.path).toOption.map fun code =>
          decide (Text.crlf <:+: code.toList))) =
      some ([file], .ok [file.path], some false) := by
    rw [hfile]
    decide +kernel
  cases hsample : (Sampling.sample Rust.parse Sampling.first mixedEnds Sampling.smallCrate
      1 1 ()).batch with
  | error e =>
      rw [hsample] at heval
      cases heval
  | ok batch =>
      simp only [hsample, Except.toOption, Option.map_some, Option.some.injEq, Prod.mk.injEq]
        at heval
      obtain ⟨hfiles, happlied, hclean⟩ := heval
      have happly : Batch.apply Workspace.writer batch mixedEnds =
          (.ok [file.path], (Batch.apply Workspace.writer batch mixedEnds).2) :=
        Prod.ext happlied rfl
      obtain ⟨code, hcode, hnext⟩ := hbatches Rust.parse batch _ _ (by decide)
        (Pipeline.sampled_of_sample Sampling.first_lawful hsample)
        (by rw [hfiles]; exact List.mem_cons_self) happly
      have hunpaired : ¬Text.crlf <:+: code.toList := by
        simpa [hcode] using hclean
      exact ⟨file, w', batch, _, code, hload, mt hpair.mp hsingle, hstore, hagain.mpr hsingle, rfl,
        happly, hnext.mpr hunpaired⟩

/-- A newline after two carriage returns is loaded with one of them, and another text comes back
after that was written.  And where a modifier stands between a carriage return and a newline, the
two meet when it goes, so what is written is not what is loaded next. -/
theorem load_not_normalised :
    (∃ file w', load (oneFile "\r\r\n") Sampling.smallCrate.root libPath = .ok file ∧
      Text.crlf <:+: file.code.toList ∧
      storeCode Workspace.writer file.path file.code (oneFile "\r\r\n") = (.ok (), w') ∧
      load w' Sampling.smallCrate.root libPath ≠ .ok file) ∧
    ∃ file m code w',
      load (oneFile "\rpub\nfn a() {}") Sampling.smallCrate.root libPath = .ok file ∧
      ¬Text.crlf <:+: file.code.toList ∧
      m ∈ ((file.candidates Rust.parse).toOption.getD []) ∧
      Batch.newText [m] file.path = .ok code ∧
      Batch.apply Workspace.writer [m] (oneFile "\rpub\nfn a() {}") = (.ok [file.path], w') ∧
      load w' Sampling.smallCrate.root libPath ≠ .ok { file with code } := by
  refine ⟨⟨⟨Sampling.smallCrate.root.join libPath, libPath, "\r\n"⟩, oneFile "\r\n", ?_⟩, ?_⟩
  · decide +kernel
  · let file : SourceFile := ⟨Sampling.smallCrate.root.join libPath, libPath, "\rpub\nfn a() {}"⟩
    refine ⟨file, ⟨file, .toInherited, .after "\r".toList, .after "\rpub".toList, rfl⟩,
      "\r\nfn a() {}", oneFile "\r\nfn a() {}", ?_⟩
    decide +kernel

end SourceFile

end Tighten
