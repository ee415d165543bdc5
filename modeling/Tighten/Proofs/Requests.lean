import Tighten.CommandLine
import Tighten.Proofs.Answers
import Tighten.Proofs.Numerals

/-
Requests on the command line.

Every run that can be asked for has a command line that asks for it.  An option with a value takes
the word after it, whatever that looks like, so any directory can be named; and after two dashes
alone no word is an option any more, so any arguments can be passed on.  The options used are read
in the order they are given, one by one, and each setting then looks for its own.

Only the length of numbers is limited: those with too many digits are never converted.
-/
namespace Tighten

namespace Text

/-! ### Whole numbers -/

theorem toNat_of_isDigit {c : Char} (h : c.isDigit = true) : 48 ≤ c.toNat ∧ c.toNat ≤ 57 := by
  simpa [Char.isDigit, UInt32.le_iff_toNat_le] using h

theorem digitValue?_of_isDigit {c : Char} (h : c.isDigit = true) :
    digitValue? c = some (c.toNat - 48) := by
  have hrange := toNat_of_isDigit h
  have hfind : zeros.find? (fun z => z ≤ c.toNat && c.toNat < z + 10) = some 48 := by
    rw [zeros, List.find?_cons_of_pos]
    simp only [Bool.and_eq_true, decide_eq_true_eq]
    omega
  rw [digitValue?, hfind]
  rfl

theorem moreDigits?_of_digits {ds : List Char} (h : Json.Digits ds) (n : Nat) :
    moreDigits? n ds = some (ds.foldl (fun n c => n * 10 + (c.toNat - 48)) n) := by
  induction ds generalizing n with
  | nil => rfl
  | cons c ds ih =>
      have hc : c.isDigit = true := h c List.mem_cons_self
      have hrest : Json.Digits ds := fun d hd => h d (List.mem_cons_of_mem c hd)
      rw [moreDigits?, digitValue?_of_isDigit hc, Option.bind_some, ih hrest, List.foldl_cons]
      -- an underscore is no digit
      rintro d rest rfl -
      exact absurd hc (by decide)

theorem digits?_toDigits (n : Nat) : digits? (Nat.toDigits 10 n) = some n := by
  have hdigits := Json.digits_toDigits n
  have hvalue := Json.digitsValue_toDigits n
  cases hds : Nat.toDigits 10 n with
  | nil => exact absurd hds Nat.toDigits_ne_nil
  | cons c ds =>
      rw [hds] at hdigits hvalue
      have hrest : Json.Digits ds := fun d hd => hdigits d (List.mem_cons_of_mem c hd)
      rw [digits?, digitValue?_of_isDigit (hdigits c List.mem_cons_self), Option.bind_some,
        moreDigits?_of_digits hrest, ← hvalue, Json.digitsValue, List.foldl_cons, Nat.zero_mul,
        Nat.zero_add]

theorem trim_of_no_blank {text : List Char} (h : ∀ c ∈ text, isBlank c = false) :
    trim text = text := by
  have hkeep : ∀ cs : List Char, (∀ c ∈ cs, isBlank c = false) → cs.dropWhile isBlank = cs := by
    intro cs hcs
    cases cs with
    | nil => rfl
    | cons c cs => exact List.dropWhile_cons_of_neg (by simp [hcs c List.mem_cons_self])
  rw [trim, hkeep text h, hkeep text.reverse (fun c hc => h c (List.mem_reverse.mp hc)),
    List.reverse_reverse]

theorem isBlank_of_isDigit {c : Char} (h : c.isDigit = true) : isBlank c = false := by
  have hrange := toNat_of_isDigit h
  simp only [isBlank, Bool.or_eq_false_iff, Bool.and_eq_false_iff, decide_eq_false_iff_not,
    beq_eq_false_iff_ne]
  omega

/-- A number that is not too long is read from its text. -/
theorem whole?_toString {n : Int} (h : n.natAbs < 10 ^ maxDigits) :
    whole? (toString n) = some n := by
  have hdigits := Json.digits_toDigits n.natAbs
  have hlength : (Nat.toDigits 10 n.natAbs).length ≤ maxDigits :=
    (Nat.length_toDigits_le_iff (by decide) (by decide)).mpr h
  have hcount := Nat.le_trans
    (List.length_filter_le (fun c => (digitValue? c).isSome) (Nat.toDigits 10 n.natAbs)) hlength
  have hblank : ∀ c ∈ (toString n).toList, isBlank c = false := by
    intro c hc
    rw [Json.toList_toString, List.mem_append] at hc
    rcases hc with hc | hc
    · obtain rfl : c = '-' := by
        split at hc
        · exact List.mem_singleton.mp hc
        · cases hc
      decide
    · exact isBlank_of_isDigit (hdigits c hc)
  unfold whole?
  dsimp only
  rw [trim_of_no_blank hblank, Json.toList_toString]
  by_cases hneg : n < 0
  · simp only [hneg, decide_true, if_true, List.singleton_append]
    rw [List.filter_cons_of_neg (by decide), if_neg (Nat.not_lt.mpr hcount), digits?_toDigits]
    have hvalue : -(n.natAbs : Int) = n := by omega
    exact congrArg some hvalue
  · simp only [hneg, decide_false, Bool.false_eq_true, if_false, List.nil_append]
    rw [if_neg (Nat.not_lt.mpr hcount)]
    split
    · next rest hsign => exact absurd (hdigits '-' (hsign ▸ List.mem_cons_self)) (by decide)
    · next rest hsign => exact absurd (hdigits '+' (hsign ▸ List.mem_cons_self)) (by decide)
    · rw [digits?_toDigits]
      have hvalue : (n.natAbs : Int) = n := by omega
      exact congrArg some hvalue

end Text

namespace CommandLine

/-! ### Options in use -/

/-- The words for an option in use. -/
def Use.words (u : Use) : List String :=
  u.flag.long :: if u.flag.takesValue then [u.value] else []

namespace Grammar

variable {g : Grammar} {u : Use}

/-- The grammar has the option by its long name, and that is a name for an option. -/
structure Knows (g : Grammar) (u : Use) : Prop where
  known : g.long? u.flag.long = some u.flag
  dashed : isOption u.flag.long = true
  named : u.flag.long ≠ "--"
  whole : '=' ∉ u.flag.long.toList
  value : u.flag.takesValue = false → u.value = ""

theorem Knows.option_eq (h : g.Knows u) :
    g.option u.flag.long = .ok (if u.flag.takesValue then { pending := some (u.flag, u.flag.long) }
      else { uses := [u] }) := by
  have hname : u.flag.long.toList.takeWhile (· ≠ '=') = u.flag.long.toList :=
    List.takeWhile_eq_self_iff.mpr fun c hc => by simpa using ne_of_mem_of_not_mem hc h.whole
  unfold option
  dsimp only
  rw [hname, String.ofList_toList, h.known]
  cases hvalue : u.flag.takesValue with
  | true => simp [hvalue]
  | false => simp [hvalue, ← h.value hvalue]

/-- An option in use is read, and then what follows it. -/
theorem Knows.read_eq (h : g.Knows u) (rest : List String) :
    g.read (u.words ++ rest) = (g.read rest).map (prepend [u] []) := by
  have hoption := h.option_eq
  cases hvalue : u.flag.takesValue with
  | true =>
      rw [hvalue] at hoption
      have hwords : u.words ++ rest = u.flag.long :: u.value :: rest := by simp [Use.words, hvalue]
      rw [hwords, read, if_neg h.named, if_pos h.dashed, hoption]
      rfl
  | false =>
      rw [hvalue] at hoption
      have hwords : u.words ++ rest = u.flag.long :: rest := by simp [Use.words, hvalue]
      rw [hwords, read, if_neg h.named, if_pos h.dashed, hoption]
      rfl

/-- Options are read as they are used, and whatever follows two dashes is passed on. -/
theorem read_flatMap_words {uses : List Use} (h : ∀ u ∈ uses, g.Knows u) (passed : List String) :
    g.read (uses.flatMap Use.words ++ "--" :: passed) = .ok ⟨uses, passed⟩ := by
  induction uses with
  | nil => simp [read]
  | cons u uses ih =>
      have hrest := ih fun v hv => h v (List.mem_cons_of_mem u hv)
      rw [List.flatMap_cons, List.append_assoc, (h u List.mem_cons_self).read_eq, hrest]
      rfl

end Grammar

/-! ### Requests for a run -/

/-- The directory as an option in use. -/
def directoryUse (directory : String) : Use :=
  ⟨{ long := "--dir", short := some 'd', takesValue := true }, directory⟩

/-- A whole number as an option in use. -/
def wholeUse (name : String) (n : Int) : Use :=
  ⟨{ long := name, takesValue := true }, toString n⟩

/-- The options in use for what may be left out. -/
def wholeUses : String × Option Int → List Use
  | (name, n) => (n.map (wholeUse name)).toList

/-- A switch as an option in use, if it is on. -/
def switchUses (flag : Flag) (on : Bool) : List Use :=
  if on then [⟨flag, ""⟩] else []

namespace RunRequest

variable (r : RunRequest)

/-- The numbers of a request, under the names of their options. -/
def wholes : List (String × Option Int) :=
  [("--seed", r.seed), ("--max-iterations", r.maxIterations), ("--min-batch", r.minBatch),
    ("--max-batch", r.maxBatch)]

/-- The options that a request uses. -/
def uses : List Use :=
  directoryUse r.directory :: (r.wholes.flatMap wholeUses ++
    switchUses { long := "--no-format" } r.noFormat ++
    switchUses { long := "--verbose", short := some 'v' } r.verbose)

/-- The words of a command line that asks for a run. -/
def words : List String :=
  "run" :: (r.uses.flatMap Use.words ++ "--" :: r.cargoArgs)

/-- No number has more digits than are ever converted. -/
def Sayable : Prop :=
  ∀ w ∈ r.wholes, ∀ n ∈ w.2, n.natAbs < 10 ^ Text.maxDigits

end RunRequest

variable {r : RunRequest} {u : Use} {name : String}

theorem mem_wholes_fst {w : String × Option Int} (h : w ∈ r.wholes) : w.1 ∈ wholeOptions := by
  have hnames : r.wholes.map Prod.fst = wholeOptions := rfl
  rw [← hnames]
  exact List.mem_map_of_mem h

theorem runGrammar_flag : ∀ flag ∈ runGrammar.flags,
    runGrammar.long? flag.long = some flag ∧ Grammar.isOption flag.long = true ∧
      flag.long ≠ "--" ∧ '=' ∉ flag.long.toList := by
  decide

theorem knows_of_mem_flags (h : u.flag ∈ runGrammar.flags)
    (hvalue : u.flag.takesValue = false → u.value = "") : runGrammar.Knows u := by
  obtain ⟨hknown, hdashed, hnamed, hwhole⟩ := runGrammar_flag u.flag h
  exact ⟨hknown, hdashed, hnamed, hwhole, hvalue⟩

theorem wholeUse_mem_flags (h : name ∈ wholeOptions) (n : Int) :
    (wholeUse name n).flag ∈ runGrammar.flags := by
  refine List.mem_append_left _ (List.mem_cons_of_mem _ ?_)
  exact List.mem_map_of_mem h

/-- The options of a request are those of the command. -/
theorem knows_of_mem_uses (h : u ∈ r.uses) : runGrammar.Knows u := by
  simp only [RunRequest.uses, List.mem_cons, List.mem_append, List.mem_flatMap] at h
  obtain rfl | (⟨⟨name, n⟩, hw, hu⟩ | hformat) | hverbose := h
  · exact knows_of_mem_flags List.mem_cons_self fun hvalue => Bool.noConfusion hvalue
  · obtain ⟨n, -, rfl⟩ := Option.map_eq_some_iff.mp (Option.mem_toList.mp hu)
    exact knows_of_mem_flags (wholeUse_mem_flags (mem_wholes_fst hw) n)
      fun hvalue => Bool.noConfusion hvalue
  · obtain ⟨-, rfl⟩ : r.noFormat = true ∧ u = _ := by simpa [switchUses] using hformat
    exact knows_of_mem_flags (by decide) fun _ => rfl
  · obtain ⟨-, rfl⟩ : r.verbose = true ∧ u = _ := by simpa [switchUses] using hverbose
    exact knows_of_mem_flags (by decide) fun _ => rfl

/-! ### What is read -/

/-- The options of a request, and its arguments. -/
def RunRequest.found (r : RunRequest) : Words := ⟨r.uses, r.cargoArgs⟩

theorem filter_wholeUses (name : String) (w : String × Option Int) :
    (wholeUses w).filter (fun u => u.flag.long == name) =
      if w.1 = name then wholeUses w else [] := by
  obtain ⟨other, n⟩ := w
  cases n with
  | none => simp [wholeUses]
  | some n => by_cases h : other = name <;> simp [wholeUses, wholeUse, h]

theorem filter_switchUses (name : String) (flag : Flag) (on : Bool) :
    (switchUses flag on).filter (fun u => u.flag.long == name) =
      if flag.long = name then switchUses flag on else [] := by
  cases on with
  | false => simp [switchUses]
  | true => by_cases h : flag.long = name <;> simp [switchUses, h]

theorem directory_found (r : RunRequest) : r.found.directory = r.directory := by
  simp [RunRequest.found, Words.directory, Words.value?, RunRequest.uses, RunRequest.wholes,
    filter_wholeUses, filter_switchUses, List.filter_append, directoryUse]

theorem getLast?_wholeUses (w : String × Option Int) :
    (wholeUses w).getLast?.map Use.value = w.2.map toString := by
  obtain ⟨name, n⟩ := w
  cases n <;> rfl

variable {w : String × Option Int}

/-- A number is found under its own name. -/
theorem value?_of_mem_wholes (h : w ∈ r.wholes) : r.found.value? w.1 = w.2.map toString := by
  rw [← getLast?_wholeUses]
  simp only [RunRequest.wholes, List.mem_cons, List.not_mem_nil, or_false] at h
  obtain rfl | rfl | rfl | rfl := h <;>
    simp [RunRequest.found, Words.value?, RunRequest.uses, RunRequest.wholes, filter_wholeUses,
      filter_switchUses, List.filter_append, directoryUse]

theorem whole_of_mem_wholes (hr : r.Sayable) (h : w ∈ r.wholes) (page : Page) :
    r.found.whole page w.1 = .ok w.2 := by
  unfold Words.whole
  rw [value?_of_mem_wholes h]
  cases hn : w.2 with
  | none => rfl
  | some n =>
      rw [Option.map_some]
      dsimp only
      rw [Text.whole?_toString (hr w h n hn)]

theorem checkWholes_found (hr : r.Sayable) (page : Page) : r.found.checkWholes page = .ok () := by
  refine forM_eq_ok fun u hu => ?_
  have hname : u.flag.long ∈ wholeOptions := by simpa using (List.mem_filter.mp hu).2
  obtain ⟨w, hw, hlong⟩ : ∃ w ∈ r.wholes, w.1 = u.flag.long := List.mem_map.mp hname
  rw [← hlong, whole_of_mem_wholes hr hw]
  rfl

theorem any_wholeUses (h : w.1 ≠ name) :
    (wholeUses w).any (fun u => u.flag.long == name) = false := by
  obtain ⟨other, n⟩ := w
  cases n with
  | none => rfl
  | some n => simpa [wholeUses, wholeUse] using h

theorem any_switchUses (name : String) (flag : Flag) (on : Bool) :
    (switchUses flag on).any (fun u => u.flag.long == name) = (on && flag.long == name) := by
  cases on <;> simp [switchUses]

/-- A name that is neither that of the directory nor that of a number is in use for a switch. -/
theorem has_found (hdirectory : "--dir" ≠ name) (hname : name ∉ wholeOptions) :
    r.found.has name =
      (r.noFormat && "--no-format" == name || r.verbose && "--verbose" == name) := by
  have hwholes : (r.wholes.flatMap wholeUses).any (fun u => u.flag.long == name) = false := by
    rw [List.any_flatMap, List.any_eq_false]
    intro w hw
    have hother : w.1 ≠ name := ne_of_mem_of_not_mem (mem_wholes_fst hw) hname
    simp [any_wholeUses hother]
  rw [Words.has, RunRequest.found, RunRequest.uses]
  simp only [List.any_cons, List.any_append, hwholes, any_switchUses, directoryUse,
    beq_eq_false_iff_ne.mpr hdirectory, Bool.false_or]

/-- Words that begin with no option are read as a command. -/
theorem read_command {words rest : List String}
    (h : mainGrammar.read words = .ok { arguments := name :: rest }) :
    read words = readCommand name rest := by
  have hempty : words.isEmpty = false := by
    cases words with
    | nil => cases h
    | cons => rfl
  unfold read
  rw [h, hempty]
  rfl

/-- **Every request can be made.**  The words for a run are read as what they ask for. -/
theorem read_words (hr : r.Sayable) : read r.words = .ok (.run r) := by
  have hwords : runGrammar.read (r.uses.flatMap Use.words ++ "--" :: r.cargoArgs) = .ok r.found :=
    Grammar.read_flatMap_words (fun u hu => knows_of_mem_uses hu) r.cargoArgs
  have hhelp : r.found.has "--help" = false := by
    rw [has_found (by decide) (by decide)]
    simp
  have hformat : r.found.has "--no-format" = r.noFormat := by
    rw [has_found (by decide) (by decide)]
    simp
  have hverbose : r.found.has "--verbose" = r.verbose := by
    rw [has_found (by decide) (by decide)]
    simp
  have hwhole : ∀ w ∈ r.wholes, r.found.whole .run w.1 = .ok w.2 :=
    fun w hw => whole_of_mem_wholes hr hw .run
  simp only [RunRequest.wholes, List.forall_mem_cons, List.not_mem_nil, false_imp_iff,
    implies_true, and_true] at hwhole
  obtain ⟨hseed, hiterations, hleast, hmost⟩ := hwhole
  have hrun : readRun (r.uses.flatMap Use.words ++ "--" :: r.cargoArgs) = .ok (.run r) := by
    simp only [readRun, hwords, Except.mapError, bind, Except.bind, pure, Except.pure, hhelp,
      checkWholes_found hr, hseed, hiterations, hleast, hmost, hformat, hverbose, directory_found]
    rfl
  have hmain : mainGrammar.read r.words = .ok { arguments := r.words } := by
    rw [RunRequest.words, Grammar.read, if_neg (by decide), if_neg (by decide)]
    rfl
  calc read r.words
    _ = readCommand "run" (r.uses.flatMap Use.words ++ "--" :: r.cargoArgs) := read_command hmain
    _ = .ok (.run r) := hrun

end CommandLine

end Tighten
