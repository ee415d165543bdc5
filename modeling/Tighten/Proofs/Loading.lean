import Tighten.Rehearsal.Session
import Tighten.Proofs.Answers
import Tighten.Proofs.JsonReading
import Tighten.Proofs.Sampling
import Tighten.Proofs.Utf8
import Tighten.Proofs.Workspace

/-
How loading settings can fail.

Loading looks whether there is a file, reads its bytes, takes them for a text, and reads the text as
a document of settings.  What is wrong with the text or the document is an error in the file, which
the program reports before it exits.  The operating system's refusal to give out the bytes, bytes
that are not a text, a number with more digits than are ever converted, and more brackets inside
each other than there is room for are not taken for errors in the file, and they end the program
unreported.

So loading is `Orderly` where the file is `Legible`: where nothing stands in its place, or a text in
which no number is too long and no bracket too many is open.
-/
namespace Tighten

namespace Text

variable {text : List Char} {run : List Char}

theorem eq_nil_of_prefix_newline {rest : List Char} (h : run <+: '\n' :: rest)
    (hrun : '\n' ∉ run) : run = [] := by
  cases run with
  | nil => rfl
  | cons c run =>
      obtain ⟨rfl, -⟩ := List.cons_prefix_cons.mp h
      exact absurd List.mem_cons_self hrun

/-- Where no newline is concerned, universal newlines change nothing. -/
theorem prefix_of_universalNewlines (h : run <+: universalNewlines text) (hrun : '\n' ∉ run) :
    run <+: text := by
  fun_induction universalNewlines text generalizing run with
  | case1 => exact h
  | case2 => simp [eq_nil_of_prefix_newline h hrun]
  | case3 => exact h
  | case4 => simp [eq_nil_of_prefix_newline h hrun]
  | case5 => simp [eq_nil_of_prefix_newline h hrun]
  | case6 c d rest hc ih =>
      cases run with
      | nil => exact List.nil_prefix
      | cons first run =>
          obtain ⟨rfl, hrest⟩ := List.cons_prefix_cons.mp h
          refine List.cons_prefix_cons.mpr ⟨rfl, ih hrest ?_⟩
          intro hmem
          exact hrun (List.mem_cons_of_mem _ hmem)

theorem infix_of_universalNewlines (h : run <:+: universalNewlines text) (hrun : '\n' ∉ run) :
    run <:+: text := by
  -- a run begins at the front of an end of the text, and each end comes from an end
  fun_induction universalNewlines text with
  | case1 => exact h
  | case2 =>
      obtain hfront | hnil := List.infix_cons_iff.mp h
      · simp [eq_nil_of_prefix_newline hfront hrun]
      · simp [List.infix_nil.mp hnil]
  | case3 => exact h
  | case4 rest ih =>
      obtain hfront | hrest := List.infix_cons_iff.mp h
      · simp [eq_nil_of_prefix_newline hfront hrun]
      · exact List.infix_cons (List.infix_cons (ih hrest))
  | case5 d rest hd ih =>
      obtain hfront | hrest := List.infix_cons_iff.mp h
      · simp [eq_nil_of_prefix_newline hfront hrun]
      · exact List.infix_cons (ih hrest)
  | case6 c d rest hc ih =>
      obtain hfront | hrest := List.infix_cons_iff.mp h
      · have hwhole : run <+: universalNewlines (c :: d :: rest) := by
          rw [universalNewlines, if_neg hc]
          exact hfront
        exact (prefix_of_universalNewlines hwhole hrun).isInfix
      · exact List.infix_cons (ih hrest)

/-- A text without carriage returns has the line ends that it is read with. -/
theorem universalNewlines_of_notMem (h : '\r' ∉ text) : universalNewlines text = text := by
  fun_induction universalNewlines text with
  | case1 => rfl
  | case2 => exact absurd List.mem_cons_self h
  | case3 => rfl
  | case4 => exact absurd List.mem_cons_self h
  | case5 => exact absurd List.mem_cons_self h
  | case6 c d rest hc ih =>
      rw [ih fun hmem => h (List.mem_cons_of_mem c hmem)]

end Text

/-- Line ends are no brackets, and it is nothing to a string whether a line in it ends with one
character or two. -/
theorem Json.depthFrom_universalNewlines (place : Place) (level : Nat) (text : List Char) :
    depthFrom place level (Text.universalNewlines text) = depthFrom place level text := by
  fun_induction Text.universalNewlines text generalizing place level with
  | case1 => rfl
  | case2 => cases place <;> rfl
  | case3 => rfl
  | case4 rest ih => cases place <;> simp [depthFrom, Place.next, Place.level, ih]
  | case5 d rest hd ih => cases place <;> simp [depthFrom, Place.next, Place.level, ih]
  | case6 c d rest hc ih => exact congrArg (max level) (ih _ _)

namespace Settings

/-- The settings are within their bounds. -/
def InBounds (s : Settings) : Prop :=
  1 ≤ s.minBatch.val ∧ s.minBatch.val ≤ s.maxBatch.val ∧ s.pollInterval.val.isPositive = true ∧
    ∀ n ∈ s.maxIterations, 1 ≤ n.val

theorem inBounds (s : Settings) : s.InBounds := by
  refine ⟨s.minBatch.property, s.minBatch_le_maxBatch, s.pollInterval.property, ?_⟩
  intro n _
  exact n.property

/-- Loading gives settings, or says what is wrong with the file. -/
def Orderly (room : Nesting) (w : Workspace) (root : Path) : Prop :=
  (∃ s, load room w root = .ok s ∧ s.InBounds) ∨
    ∃ fault, load room w root = .error (.file (filePath root) fault)

/-- No number in a text is too long, and there is room for all of its brackets. -/
structure Readable (room : Nesting) (text : List Char) : Prop where
  numbers : ∀ n, ¬Json.HasOverlong text n
  brackets : Json.depth text ≤ room.val

/-- Nothing stands in the place of the file, or a text that can be read. -/
def Legible (room : Nesting) (w : Workspace) (root : Path) : Prop :=
  w.exists? (filePath root) = true → ∃ bytes text, w.read (filePath root) = .ok bytes ∧
    Text.Utf8.decode bytes = .ok text ∧ Readable room text

variable {room : Nesting} {w : Workspace} {root path : Path}

/-- Line ends have no part in a number. -/
theorem hasOverlong_of_universalNewlines {text : List Char} {n : Nat}
    (h : Json.HasOverlong (Text.universalNewlines text) n) : Json.HasOverlong text n := by
  obtain ⟨hn, digits, hstretch, hdigits, hlength⟩ := h
  refine ⟨hn, digits, Text.infix_of_universalNewlines hstretch ?_, hdigits, hlength⟩
  intro hnewline
  exact absurd (hdigits _ hnewline) (by decide)

theorem ofBytes_of_decode {bytes : List UInt8} {text : List Char}
    (hdecode : Text.Utf8.decode bytes = .ok text) :
    ofBytes room path bytes =
      match Json.parse room.val (String.ofList (Text.universalNewlines text)) with
      | .error (.tooLong digits) => .error (.overlong digits)
      | .error (.tooDeep inside) => .error (.tooDeep inside)
      | .error e => .error (.file path (.malformed e))
      | .ok value => (ofDocument value).mapError (.file path) := by
  unfold ofBytes
  rw [hdecode]
  rfl

/-- A text that can be read holds settings or is at fault. -/
theorem ofBytes_cases {bytes : List UInt8} {text : List Char}
    (hdecode : Text.Utf8.decode bytes = .ok text) (htext : Readable room text) :
    (∃ s, ofBytes room path bytes = .ok s) ∨
      ∃ fault, ofBytes room path bytes = .error (.file path fault) := by
  rw [ofBytes_of_decode hdecode]
  cases hparse : Json.parse room.val (String.ofList (Text.universalNewlines text)) with
  | error e =>
      cases e with
      | malformed complaint line column offset => exact Or.inr ⟨_, rfl⟩
      | tooLong n =>
          have hlong := Json.parse_tooLong hparse
          rw [String.toList_ofList] at hlong
          exact absurd (hasOverlong_of_universalNewlines hlong) (htext.numbers n)
      | tooDeep inside =>
          have hdeep := Json.parse_tooDeep hparse
          rw [String.toList_ofList, Json.depth, Json.depthFrom_universalNewlines] at hdeep
          exact absurd htext.brackets (Nat.not_le_of_lt hdeep)
  | ok value =>
      dsimp only
      cases ofDocument value with
      | ok s => exact Or.inl ⟨s, rfl⟩
      | error fault => exact Or.inr ⟨fault, rfl⟩

theorem Legible.orderly (h : Legible room w root) : Orderly room w root := by
  unfold Orderly load
  dsimp only
  by_cases hexists : w.exists? (filePath root) = true
  · obtain ⟨bytes, text, hread, hdecode, htext⟩ := h hexists
    rw [if_pos hexists, hread]
    obtain ⟨s, hs⟩ | hfault := ofBytes_cases hdecode htext
    · exact Or.inl ⟨s, hs, s.inBounds⟩
    · exact Or.inr hfault
  · rw [if_neg hexists]
    exact Or.inl ⟨default, rfl, default.inBounds⟩

/-! ### What is not taken for an error in the file -/

theorem exists?_of_read {bytes : List UInt8} (h : w.read path = .ok bytes) :
    w.exists? path = true := by
  obtain ⟨names, hlocate, hentry⟩ := Workspace.read_eq_ok.mp h
  simp [Workspace.exists?, hlocate, hentry]

theorem load_of_read {bytes : List UInt8} (h : w.read (filePath root) = .ok bytes) :
    load room w root = ofBytes room (filePath root) bytes := by
  unfold load
  dsimp only
  rw [if_pos (exists?_of_read h), h]

theorem load_undecodable {bytes : List UInt8} {e : Text.Utf8.DecodeError}
    (hread : w.read (filePath root) = .ok bytes) (hdecode : Text.Utf8.decode bytes = .error e) :
    load room w root = .error (.undecodable e) := by
  rw [load_of_read hread]
  unfold ofBytes
  rw [hdecode]
  rfl

theorem load_refused {e : OsError} (hexists : w.exists? (filePath root) = true)
    (hread : w.read (filePath root) = .error e) : load room w root = .error (.os e) := by
  unfold load
  dsimp only
  rw [if_pos hexists, hread]

/-- The bytes of more brackets than there is room for. -/
def tooManyBrackets (room : Nesting) : List UInt8 :=
  Text.Utf8.encode (List.replicate (room.val + 1) '[')

theorem load_tooManyBrackets (hread : w.read (filePath root) = .ok (tooManyBrackets room)) :
    load room w root = .error (.tooDeep .list) := by
  have hreturn : '\r' ∉ List.replicate (room.val + 1) '[' := by
    intro hmem
    exact absurd (List.eq_of_mem_replicate hmem) (by decide)
  have hvalue := Json.valueAt_replicate room.val []
  rw [List.append_nil] at hvalue
  have hdocument : Json.document room.val (List.replicate (room.val + 1) '[') =
      .error (.tooDeep .list) := by
    have hblank : Json.skipSpace (List.replicate (room.val + 1) '[') =
        List.replicate (room.val + 1) '[' := rfl
    unfold Json.document
    split
    · next heq => cases heq
    · rw [hblank, hvalue]
  rw [load_of_read hread, tooManyBrackets, ofBytes_of_decode (Text.Utf8.decode_encode _),
    Text.universalNewlines_of_notMem hreturn, Json.parse, String.toList_ofList, hdocument]
  rfl

theorem Orderly.eq_file {e : LoadError} (h : Orderly room w root)
    (hload : load room w root = .error e) :
    ∃ fault, e = .file (filePath root) fault := by
  obtain ⟨s, hs, -⟩ | ⟨fault, hfault⟩ := h
  · rw [hs] at hload
    cases hload
  · rw [hfault] at hload
    exact ⟨fault, (Except.error.inj hload).symm⟩

end Settings

namespace Program

variable {σ ρ : Type} {sys : System σ} {start : Start} {r : CommandLine.RunRequest} {s : σ}
  {root : Path} {e : Settings.LoadError}

/-- The program is started in the crate with this root. -/
def StartsIn (sys : System σ) (start : Start) (r : CommandLine.RunRequest) (s : σ) (root : Path) :
    Prop :=
  Crate.atRoot (sys.workspace s) (start.directory.join (Path.ofText r.directory)).resolved =
    .ok ⟨root⟩

theorem run_get_bind {α : Type} (f : σ → Action σ α) :
    (get >>= f).run.run s = (f s).run.run s :=
  rfl

theorem openCrate_run (h : StartsIn sys start r s root) :
    (openCrate sys start r.directory).run.run s = (.ok ⟨root⟩, s) := by
  unfold StartsIn at h
  unfold openCrate
  rw [run_get_bind, h]
  rfl

/-- What is refused is the last thing that is printed. -/
theorem refuse_run {α : Type} {text out : String}
    (h : Console.message sys.libraries.console .error text = .ok out) (s : σ) :
    (refuse sys text : Action σ α).run.run s = (.error (.exit 1), sys.print out s) := by
  unfold refuse tell
  rw [h]
  rfl

theorem refuse_run_error {α : Type} {text : String} {e : Console.MarkupError}
    (h : Console.message sys.libraries.console .error text = .error e) (s : σ) :
    (refuse sys text : Action σ α).run.run s = (.error (.escape (.markup e)), s) := by
  unfold refuse tell
  rw [h]
  rfl

/-- An error in the file is reported. -/
theorem settingsFor_file {path : Path} {fault : Settings.Fault} {text : String}
    (hload : Settings.load sys.libraries.nesting (sys.workspace s) root =
      .error (.file path fault))
    (htext : Console.message sys.libraries.console .error
      ((Settings.LoadError.file path fault).message sys.libraries.fields) = .ok text) :
    (settingsFor sys ⟨root⟩ r).run.run s = (.error (.exit 1), sys.print text s) := by
  unfold settingsFor
  rw [run_get_bind, hload]
  exact refuse_run htext s

/-- Any other error ends the program as it is. -/
theorem settingsFor_escape
    (hload : Settings.load sys.libraries.nesting (sys.workspace s) root = .error e)
    (he : ∀ path fault, e ≠ .file path fault) :
    (settingsFor sys ⟨root⟩ r).run.run s = (.error (.escape (.settings e)), s) := by
  unfold settingsFor
  rw [run_get_bind, hload]
  cases e with
  | file path fault => exact absurd rfl (he path fault)
  | os e => rfl
  | undecodable e => rfl
  | overlong n => rfl
  | tooDeep inside => rfl

/-- With these libraries, every run in the crate prints one text, exits with status 1 and does
nothing else. -/
def OnlyReports (libraries : Libraries) (w : Workspace) (root : Path) (text : String) : Prop :=
  ∀ {σ ρ : Type} (sys : System σ) (parser : Parser) (source : RandomSource ρ) (seeded : Int → ρ)
    (rounds : Nat) (start : Start) (r : CommandLine.RunRequest) (s : σ),
    sys.libraries = libraries → sys.workspace s = w → StartsIn sys start r s root →
    (run sys parser source seeded rounds start r).run.run s = (.error (.exit 1), sys.print text s)

theorem onlyReports {libraries : Libraries} {w : Workspace} {path : Path}
    {fault : Settings.Fault} {text : String}
    (hload : Settings.load libraries.nesting w root = .error (.file path fault))
    (htext : Console.message libraries.console .error
      ((Settings.LoadError.file path fault).message libraries.fields) = .ok text) :
    OnlyReports libraries w root text := by
  rintro σ ρ sys parser source seeded rounds start r s rfl rfl hstart
  unfold run
  rw [run_bind_ok (openCrate_run hstart)]
  exact run_bind_error (settingsFor_file hload htext)

/-- What is not an error in the file ends a run before anything is printed. -/
theorem run_escapes (parser : Parser) (source : RandomSource ρ) (seeded : Int → ρ) (rounds : Nat)
    (hstart : StartsIn sys start r s root)
    (hload : Settings.load sys.libraries.nesting (sys.workspace s) root = .error e)
    (he : ∀ path fault, e ≠ .file path fault) :
    (run sys parser source seeded rounds start r).run.run s =
      (.error (.escape (.settings e)), s) := by
  unfold run
  rw [run_bind_ok (openCrate_run hstart)]
  exact run_bind_error (settingsFor_escape hload he)

end Program

namespace Program

/-- The directory of the crate. -/
def plainRoot : Path := ⟨"/", ["crate"]⟩

/-- The crate with something in the place of its settings. -/
def plainCrate (e : Entry) : Workspace where
  base := plainRoot
  entries := [([manifestName], .file []), ([Settings.fileName], e)]

/-- What the program is built on in the crate. -/
def plainLibraries : Libraries := Rehearsal.libraries ""

/-- A system that keeps what is printed and starts no commands. -/
def notepad : System (Workspace × List String) where
  libraries := plainLibraries
  workspace s := s.1
  write p bytes s := ((Workspace.writer p bytes s.1).1, (Workspace.writer p bytes s.1).2, s.2)
  execute _ _ _ s := (.error .cancelled, s)
  print text s := (s.1, s.2 ++ [text])
  complain _ s := s
  freshSeed s := (0, s)

/-- The program is started in the crate's own directory. -/
def plainStart : Start := ⟨["run"], plainRoot, []⟩

/-- A run in the crate. -/
def plainRun (e : Entry) : Except Ending Unit × Workspace × List String :=
  (run notepad Rust.parse Sampling.first (fun _ => ()) 1 plainStart {}).run.run (plainCrate e, [])

theorem plainCrate_startsIn (e : Entry) :
    StartsIn notepad plainStart {} (plainCrate e, []) plainRoot := by
  cases e with
  | file bytes => rfl
  | directory => rfl

theorem plainCrate_read (bytes : List UInt8) :
    (plainCrate (.file bytes)).read (Settings.filePath plainRoot) = .ok bytes :=
  rfl

end Program

namespace Settings

open Program

theorem plainCrate_not_orderly {entry : Entry} {e : LoadError}
    (hload : load plainLibraries.nesting (plainCrate entry) plainRoot = .error e)
    (he : ∀ path fault, e ≠ .file path fault) :
    ¬Orderly plainLibraries.nesting (plainCrate entry) plainRoot ∧
      plainRun entry = (.error (.escape (.settings e)), plainCrate entry, []) := by
  refine ⟨?_, run_escapes Rust.parse Sampling.first _ 1 (plainCrate_startsIn _) hload he⟩
  intro h
  obtain ⟨fault, hfault⟩ := h.eq_file hload
  exact he _ _ hfault

end Settings

end Tighten
