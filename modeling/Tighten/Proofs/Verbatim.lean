import Tighten.Proofs.Loading
import Tighten.Proofs.Markup

/-
What the user sees of a text.

The console puts a message after a sign with a colour, and a candidate between the tags of a style,
without quoting what it puts there.  The tags of its own do no harm: nothing before them ends in a
backslash, so they are read as tags whatever stands between them, and a style that is opened is
still open where it is closed.  So a text shows as it is exactly if it is `Unmarked`, and what keeps
it from being shown at all is a closing tag in it.

A batch is printed line by line.  No line has more ink than it should have, so if the batch as a
whole has the ink it should have, then so has every line.
-/
namespace Tighten.Console

variable {codes : EmojiCodes} {text inner rest : List Char} {style : String}

/-! ### Plain characters -/

/-- Whether a character is printed and has no part in a tag, a quotation or a code. -/
def isPlain (c : Char) : Bool :=
  !isStripped c && c ≠ '[' && c ≠ '\\' && c ≠ ':'

theorem HasTag.of_plain_cons {begins : Char → Bool} {c : Char} (hc : isPlain c = true)
    (h : HasTag begins (c :: text)) : HasTag begins text := by
  obtain ⟨body, hbody, hinfix⟩ := h
  rcases List.infix_cons_iff.mp hinfix with hfront | hinfix
  · obtain ⟨rfl, -⟩ := List.cons_prefix_cons.mp hfront
    exact absurd hc (by decide)
  · exact ⟨body, hbody, hinfix⟩

/-- A plain character before a text changes nothing for the text. -/
theorem unmarked_cons {c : Char} (hc : isPlain c = true) :
    Unmarked codes (c :: text) ↔ Unmarked codes text := by
  have hparts := hc
  simp only [isPlain, Bool.and_eq_true, Bool.not_eq_true', decide_eq_true_eq] at hparts
  obtain ⟨⟨⟨hprinted, -⟩, hbackslash⟩, hcolon⟩ := hparts
  constructor
  · rintro ⟨htag, hquoted, hcode, hprintable⟩
    refine ⟨fun h => htag (h.of_infix (List.suffix_cons c text).isInfix), ?_, ?_, ?_⟩
    · exact fun h => hquoted (List.infix_cons h)
    · cases hcode with
      | char _ h => exact h
      | loose _ _ => exact absurd rfl hcolon
      | unknown _ _ _ => exact absurd rfl hcolon
    · exact fun d hd => hprintable d (List.mem_cons_of_mem c hd)
  · rintro ⟨htag, hquoted, hcode, hprintable⟩
    refine ⟨fun h => htag (h.of_plain_cons hc), ?_, .char hcolon hcode, ?_⟩
    · intro h
      rcases List.infix_cons_iff.mp h with hfront | h
      · exact hbackslash (List.cons_prefix_cons.mp hfront).1.symm
      · exact hquoted h
    · intro d hd
      rcases List.mem_cons.mp hd with rfl | hd
      · exact hprinted
      · exact hprintable d hd

theorem unmarked_of_plain (h : ∀ c ∈ text, isPlain c = true) : Unmarked codes text := by
  induction text with
  | nil => exact unmarked_nil
  | cons c text ih =>
      rw [unmarked_cons (h c List.mem_cons_self)]
      exact ih fun d hd => h d (List.mem_cons_of_mem c hd)

theorem getLast?_ne_backslash (h : ∀ c ∈ text, isPlain c = true) : text.getLast? ≠ some '\\' := by
  intro hlast
  exact absurd (h '\\' (List.mem_of_getLast? hlast)) (by decide)

/-! ### Styles -/

variable {rules : Rules}

theorem bold_mem : "bold" ∈ styles := by decide

theorem dim_mem : "dim" ∈ styles := by decide

/-- The words of styles are tags without parameters, and their names begin with a letter. -/
theorem style_word : ∀ style ∈ styles, style.toList ≠ [] ∧
    beginsTag (style.toList.headD ' ') = true ∧ '[' ∉ style.toList ∧ ']' ∉ style.toList ∧
    '/' ∉ style.toList ∧ '=' ∉ style.toList ∧ Text.trim style.toList = style.toList ∧
    style.toList.head? ≠ some '@' := by
  decide +kernel

theorem isTag_opening (h : style ∈ styles) : IsTag beginsTag style.toList := by
  obtain ⟨hne, hfirst, hopen, hclose, -⟩ := style_word style h
  obtain ⟨c, rest, hword⟩ := List.exists_cons_of_ne_nil hne
  rw [hword] at hfirst
  exact ⟨⟨c, rest, hword, hfirst⟩, hopen, hclose⟩

theorem isTag_closing (h : style ∈ styles) : IsTag beginsTag ('/' :: style.toList) := by
  obtain ⟨-, -, hopen, hclose, -⟩ := style_word style h
  exact ⟨⟨'/', style.toList, rfl, by decide⟩, by simpa using hopen, by simpa using hclose⟩

theorem takeWhile_of_not_mem {d : Char} (h : d ∉ text) : text.takeWhile (· ≠ d) = text :=
  List.takeWhile_eq_self_iff.mpr fun _ hc => by simpa using ne_of_mem_of_not_mem hc h

/-- The tag of a style, when it is open. -/
def styleTag (style : String) : OpenTag := ⟨style, []⟩

theorem openTags_opening (h : style ∈ styles) (place : Nat) (opened : List OpenTag) :
    openTags rules style.toList place opened = .ok (styleTag style :: opened) := by
  obtain ⟨-, -, -, -, hslash, hequals, -, -⟩ := style_word style h
  unfold openTags
  rw [takeWhile_of_not_mem hequals]
  split
  · next rest hword =>
    rw [hword] at hslash
    exact absurd List.mem_cons_self hslash
  · rw [rules.normal_style style h, List.drop_eq_nil_of_le (Nat.le_succ _)]
    rfl

/-- Nothing has to be read to close a tag with the name of a style. -/
theorem close_of_mem_styles {tag : OpenTag} (h : tag.name ∈ styles) (others : List OpenTag) :
    tag.close rules others = .ok others := by
  obtain ⟨-, -, -, -, -, -, -, hname⟩ := style_word tag.name h
  rw [OpenTag.close, OpenTag.complaint?, if_neg fun hat => hname hat.1]

theorem openTags_closing (rules : Rules) (h : style ∈ styles) (place : Nat)
    {opened : List OpenTag} (hopened : styleTag style ∈ opened) :
    openTags rules ('/' :: style.toList) place opened =
      .ok (opened.eraseP (·.name = style)) := by
  obtain ⟨hne, -, -, -, -, hequals, htrim, -⟩ := style_word style h
  have hempty : style.toList.isEmpty = false := by simpa using hne
  obtain ⟨tag, htag⟩ : ∃ tag, opened.find? (·.name = style) = some tag := by
    rw [← Option.isSome_iff_exists, List.find?_isSome]
    exact ⟨styleTag style, hopened, decide_eq_true rfl⟩
  have hname : tag.name = style := by simpa using List.find?_some htag
  unfold openTags
  rw [takeWhile_of_not_mem (by simpa using hequals)]
  simp only [htrim, rules.normal_style style h, hempty, Bool.false_eq_true, if_false, htag]
  exact close_of_mem_styles (hname ▸ h) _

/-- A text between the tags of a style, and what comes after it. -/
def styled (style : String) (inner rest : List Char) : List Char :=
  '[' :: (style.toList ++ ']' :: (inner ++ '[' :: ('/' :: style.toList ++ ']' :: rest)))

/-- The tags of a style are read as tags, whatever stands between them. -/
theorem plainText_styled (hstyle : style ∈ styles) (front : List Char)
    (hfront : ∀ c ∈ front, isPlain c = true) (hinner : inner.getLast? ≠ some '\\')
    (rest : List Char) (rules : Rules) :
    ∃ position place after, plainText rules (front ++ styled style inner rest) =
      (printPieces rules [styleTag style] (pieces 0 position inner ++
        .tag ('/' :: style.toList) place :: pieces 0 after rest)).map (front ++ ·) := by
  obtain ⟨first, position, hpieces⟩ := pieces_append_tag (isTag_opening hstyle)
    (inner ++ '[' :: ('/' :: style.toList ++ ']' :: rest)) (getLast?_ne_backslash hfront) 0
  obtain ⟨place, after, hinside⟩ := pieces_append_tag (isTag_closing hstyle) rest hinner position
  refine ⟨position, place, after, ?_⟩
  rw [plainText, styled, hpieces, (unmarked_of_plain hfront).printPieces_append,
    printPieces_tag (openTags_opening hstyle _ _), hinside]

/-- Plain text between the tags of a style is printed as it is. -/
theorem plainText_styled_plain (hstyle : style ∈ styles) (hinner : ∀ c ∈ inner, isPlain c = true)
    (rest : List Char) (rules : Rules) :
    ∃ after, plainText rules (styled style inner rest) =
      (printPieces rules [] (pieces 0 after rest)).map (inner ++ ·) := by
  obtain ⟨position, place, after, heq⟩ := plainText_styled hstyle [] (by simp)
    (getLast?_ne_backslash hinner) rest rules
  have hclosed := openTags_closing rules hstyle place (List.mem_singleton_self _)
  refine ⟨after, ?_⟩
  rw [List.nil_append] at heq
  rw [heq, (unmarked_of_plain hinner).printPieces_append, printPieces_tag hclosed,
    List.eraseP_cons_of_pos (by simp [styleTag])]
  cases printPieces rules [] (pieces 0 after rest) <;> rfl

/-! ### Lines -/

/-- A text as a line of its own. -/
def layOut (text : List Char) : String :=
  String.ofList (expandTabs 0 text ++ ['\n'])

theorem line_eq (markup : String) :
    line rules markup = (plainText rules markup.toList).map layOut := rfl

theorem inked_space (text : List Char) : inked (' ' :: text) = inked text :=
  List.filter_cons_of_neg (by decide)

theorem inked_spaces (n : Nat) : inked (spaces n) = [] := by
  refine List.filter_eq_nil_iff.mpr fun c hc => ?_
  rw [List.eq_of_mem_replicate hc]
  decide

/-- Tabs are blank, and so are the spaces in their place. -/
theorem inked_expandTabs (column : Nat) (text : List Char) :
    inked (expandTabs column text) = inked text := by
  fun_induction expandTabs column text with
  | case1 => rfl
  | case2 column rest next ih =>
      rw [inked_append, inked_spaces, ih]
      rfl
  | case3 column rest htab ih => rw [inked_cons '\n' rest, inked_cons, ih]
  | case4 column c rest htab hnewline ih => rw [inked_cons c rest, inked_cons, ih]

theorem inked_layOut (text : List Char) : inked (layOut text).toList = inked text ++ ['\n'] := by
  rw [layOut, String.toList_ofList, inked_append, inked_expandTabs]
  rfl

/-- A line shows the ink of its text. -/
theorem inked_eq_of_layOut {text more : List Char}
    (h : inked (layOut text).toList = inked (layOut more).toList) : inked text = inked more := by
  rw [inked_layOut, inked_layOut] at h
  exact List.append_cancel_right h

/-! ### Closing tags -/

/-- Pieces of a text without closing tags are printed, whatever comes after them. -/
theorem exists_printPieces_of_not_closes (h : ¬HasTag closes text) (position : Nat)
    (rules : Rules) (opened : List OpenTag) :
    ∃ tags front, ∀ qs, printPieces rules opened (pieces 0 position text ++ qs) =
      (printPieces rules (tags ++ opened) qs).map (front ++ ·) := by
  refine exists_printPieces ?_ opened
  rintro body place hmem rest rfl
  obtain ⟨hbody, hinfix⟩ := mem_pieces_tag hmem
  exact h ⟨'/' :: rest, ⟨⟨'/', rest, rfl, by decide⟩, hbody.noOpen, hbody.noClose⟩, hinfix⟩

/-! ### Messages -/

/-- The sign of a message without its colour. -/
def Tone.symbol : Tone → Char
  | .success => '✓'
  | .error => '✗'
  | .warning => '!'
  | .info => 'i'

/-- The colour of the sign. -/
def Tone.colour : Tone → String
  | .success => "green"
  | .error => "red"
  | .warning => "yellow"
  | .info => "blue"

theorem Tone.toList_sign (tone : Tone) (rest : List Char) :
    tone.sign.toList ++ rest = styled tone.colour [tone.symbol] rest := by
  cases tone <;> simp [Tone.sign, Tone.colour, Tone.symbol, styled]

theorem Tone.colour_mem (tone : Tone) : tone.colour ∈ styles := by
  cases tone <;> decide

theorem Tone.isPlain_symbol (tone : Tone) : isPlain tone.symbol = true := by
  cases tone <;> decide

/-- A message is the sign and what its text prints. -/
theorem message_eq (tone : Tone) (text : String) (rules : Rules) :
    ∃ after, message rules tone text =
      (printPieces rules [] (pieces 0 after (' ' :: text.toList))).map
        fun out => layOut (tone.symbol :: out) := by
  have hsymbol : ∀ c ∈ [tone.symbol], isPlain c = true := by
    simpa using tone.isPlain_symbol
  obtain ⟨after, heq⟩ := plainText_styled_plain tone.colour_mem hsymbol (' ' :: text.toList) rules
  refine ⟨after, ?_⟩
  have hmarkup : (tone.sign ++ " " ++ text).toList =
      styled tone.colour [tone.symbol] (' ' :: text.toList) := by
    simp [← tone.toList_sign]
  rw [message, line_eq, hmarkup, heq]
  cases printPieces rules [] (pieces 0 after (' ' :: text.toList)) <;> rfl

theorem message_of_unmarked {text : String} (h : Unmarked rules.emoji text.toList) (tone : Tone) :
    message rules tone text = .ok (layOut (tone.symbol :: ' ' :: text.toList)) := by
  obtain ⟨after, heq⟩ := message_eq tone text rules
  rw [heq, ((unmarked_cons (by decide)).mpr h).printPieces_eq]
  rfl

/-- A message shows its text exactly if the text is unmarked. -/
theorem message_eq_ok_iff (hemoji : rules.emoji.Brief) (tone : Tone) (text : String) :
    message rules tone text = .ok (layOut (tone.symbol :: ' ' :: text.toList)) ↔
      Unmarked rules.emoji text.toList := by
  refine ⟨fun h => ?_, fun h => message_of_unmarked h tone⟩
  obtain ⟨after, heq⟩ := message_eq tone text rules
  rw [heq] at h
  obtain ⟨out, hout, hlayOut⟩ := map_eq_ok.mp h
  have hink := inked_eq_of_layOut (congrArg (fun line => inked line.toList) hlayOut)
  rw [inked_cons, inked_cons _ (' ' :: text.toList)] at hink
  exact (unmarked_cons (by decide)).mp
    (unmarked_of_printPieces hemoji hout (List.append_cancel_left hink))

/-- What keeps a message from being printed is a closing tag in its text. -/
theorem closes_of_message_error {tone : Tone} {text : String} {e : MarkupError}
    (h : message rules tone text = .error e) : HasTag closes text.toList := by
  by_contra htag
  have htag' : ¬HasTag closes (' ' :: text.toList) :=
    fun hclose => htag (hclose.of_plain_cons (by decide))
  obtain ⟨after, heq⟩ := message_eq tone text rules
  obtain ⟨tags, front, hfront⟩ := exists_printPieces_of_not_closes htag' after rules []
  have hprinted := hfront []
  rw [List.append_nil] at hprinted
  rw [heq, hprinted] at h
  cases h

/-! ### Batches -/

/-- What is said before a batch. -/
def heading (iteration : Int) (candidates : List Candidate) : String :=
  s!"#{iteration} trying {candidates.length} mutation(s)"

/-- A candidate of a batch as it is put to the console. -/
def candidateLine (c : Candidate) : String :=
  s!"  [dim]{c.describe}[/dim]"

/-- A candidate of a batch as it should be shown. -/
def shown (c : Candidate) : String :=
  layOut (' ' :: ' ' :: c.describe.toList)

theorem isPlain_of_isDigit {c : Char} (h : c.isDigit = true) : isPlain c = true := by
  have hrange : 48 ≤ c.toNat ∧ c.toNat ≤ 57 := by
    simpa [Char.isDigit, UInt32.le_iff_toNat_le] using h
  have hstripped : isStripped c = false := by
    rw [isStripped, decide_eq_false_iff_not]
    simp only [List.mem_cons, List.not_mem_nil, or_false]
    omega
  have hother : ∀ d : Char, d.isDigit = false → c ≠ d := by
    rintro d hd rfl
    rw [h] at hd
    cases hd
  simp [isPlain, hstripped, hother '[' (by decide), hother '\\' (by decide),
    hother ':' (by decide)]

theorem isPlain_toString_nat (n : Nat) : ∀ c ∈ (toString n).toList, isPlain c = true := by
  intro c hc
  rw [Nat.toString_eq_repr, Nat.toList_repr] at hc
  exact isPlain_of_isDigit (Nat.isDigit_of_mem_toDigits (by decide) (by decide) hc)

theorem isPlain_toString_int (n : Int) : ∀ c ∈ (toString n).toList, isPlain c = true := by
  intro c hc
  cases n with
  | ofNat n => exact isPlain_toString_nat n c hc
  | negSucc n =>
      have hc : c ∈ '-' :: (toString (n + 1)).toList := by simpa [toString, Int.repr] using hc
      rcases List.mem_cons.mp hc with rfl | hc
      · decide
      · exact isPlain_toString_nat (n + 1) c hc

theorem line_heading (iteration : Int) (candidates : List Candidate) (rules : Rules) :
    line rules s!"[bold]#{iteration}[/bold] trying {candidates.length} mutation(s)" =
      .ok (layOut (heading iteration candidates).toList) := by
  have hmarkup : (s!"[bold]#{iteration}[/bold] trying {candidates.length} mutation(s)").toList =
      styled "bold" ('#' :: (toString iteration).toList)
        (" trying ".toList ++ (toString candidates.length).toList ++ " mutation(s)".toList) := by
    simp [toString, styled]
  have hbold : ∀ c ∈ '#' :: (toString iteration).toList, isPlain c = true := by
    intro c hc
    rcases List.mem_cons.mp hc with rfl | hc
    · decide
    · exact isPlain_toString_int iteration c hc
  have hrest : ∀ c ∈ " trying ".toList ++ (toString candidates.length).toList ++
      " mutation(s)".toList, isPlain c = true := by
    have hwords : (" trying ".toList ++ " mutation(s)".toList).all isPlain = true := by decide
    rw [List.all_eq_true] at hwords
    intro c hc
    rcases List.mem_append.mp hc with hc | hc
    · rcases List.mem_append.mp hc with hc | hc
      · exact hwords c (List.mem_append_left _ hc)
      · exact isPlain_toString_nat _ c hc
    · exact hwords c (List.mem_append_right _ hc)
  obtain ⟨after, heq⟩ := plainText_styled_plain bold_mem hbold _ rules
  rw [line_eq, hmarkup, heq, (unmarked_of_plain hrest).printPieces_eq]
  simp [toString, Except.map, heading]

theorem describe_getLast? (c : Candidate) : c.describe.toList.getLast? ≠ some '\\' := by
  have hname : ∀ n : Narrowing, n.name.toList.getLast? = some (n.name.toList.getLastD ' ') ∧
      n.name.toList.getLastD ' ' ≠ '\\' := by
    intro n
    cases n <;> decide
  obtain ⟨hlast, hne⟩ := hname c.narrowing
  have hdescribe : c.describe.toList =
      (s!"{c.file.relative.toText}:{c.span.start.toText} ").toList ++ c.narrowing.name.toList := by
    simp [toString, Candidate.describe]
  rw [hdescribe, List.getLast?_append, hlast]
  simpa using hne

/-- A candidate's line is what its description prints, with the style still open. -/
theorem line_candidate (c : Candidate) (rules : Rules) :
    ∃ position place, line rules (candidateLine c) =
      (printPieces rules [styleTag "dim"] (pieces 0 position c.describe.toList ++
        [.tag ('/' :: "dim".toList) place])).map fun out => layOut (' ' :: ' ' :: out) := by
  have hmarkup : (candidateLine c).toList = [' ', ' '] ++ styled "dim" c.describe.toList [] := by
    simp [toString, candidateLine, styled]
  obtain ⟨position, place, after, heq⟩ := plainText_styled dim_mem [' ', ' ']
    (List.all_eq_true.mp (by decide)) (describe_getLast? c) [] rules
  refine ⟨position, place, ?_⟩
  rw [line_eq, hmarkup, heq, pieces]
  cases printPieces rules [styleTag "dim"] (pieces 0 position c.describe.toList ++
    [.tag ('/' :: "dim".toList) place]) <;> rfl

/-- A candidate with an unmarked description is shown as it is. -/
theorem line_candidate_of_unmarked {c : Candidate} (h : Unmarked rules.emoji c.describe.toList) :
    line rules (candidateLine c) = .ok (shown c) := by
  obtain ⟨position, place, heq⟩ := line_candidate c rules
  have hclosed := openTags_closing rules dim_mem place (List.mem_singleton_self _)
  rw [heq, h.printPieces_append, printPieces_tag hclosed]
  simp [printPieces, Except.map, shown]

/-- What is printed for a candidate comes from its description. -/
theorem line_candidate_eq_ok {c : Candidate} {text : String}
    (h : line rules (candidateLine c) = .ok text) :
    ∃ position out,
      printPieces rules [styleTag "dim"] (pieces 0 position c.describe.toList) = .ok out ∧
      text = layOut (' ' :: ' ' :: out) := by
  obtain ⟨position, place, heq⟩ := line_candidate c rules
  rw [heq] at h
  obtain ⟨out, hout, rfl⟩ := map_eq_ok.mp h
  obtain ⟨left, front, back, hfront, hback, rfl⟩ := printPieces_append_eq_ok hout
  obtain ⟨tags, -, hnil⟩ := openTags_of_printPieces hback
  obtain rfl : [] = back := Except.ok.inj hnil
  exact ⟨position, front, hfront, by rw [List.append_nil]⟩

/-- What is printed for a candidate has no more ink than the candidate. -/
theorem ink_line_candidate_le (hemoji : rules.emoji.Brief) {c : Candidate} {text : String}
    (h : line rules (candidateLine c) = .ok text) : ink text.toList ≤ ink (shown c).toList := by
  obtain ⟨position, out, hout, rfl⟩ := line_candidate_eq_ok h
  have hle := Nat.le_trans (ink_printPieces_le hemoji hout) (inkIn_pieces_le _ _)
  rw [shown, ink, ink, inked_layOut, inked_layOut, List.length_append, List.length_append,
    inked_space, inked_space, inked_space, inked_space]
  exact Nat.add_le_add_right hle _

theorem unmarked_of_line_candidate (hemoji : rules.emoji.Brief) {c : Candidate} {text : String}
    (h : line rules (candidateLine c) = .ok text)
    (hink : inked text.toList = inked (shown c).toList) :
    Unmarked rules.emoji c.describe.toList := by
  obtain ⟨position, out, hout, rfl⟩ := line_candidate_eq_ok h
  have hwhole := inked_eq_of_layOut hink
  rw [inked_space, inked_space, inked_space, inked_space] at hwhole
  exact unmarked_of_printPieces hemoji hout hwhole

theorem exists_line_candidate {c : Candidate} (h : ¬HasTag closes c.describe.toList)
    (rules : Rules) : ∃ text, line rules (candidateLine c) = .ok text := by
  obtain ⟨position, place, heq⟩ := line_candidate c rules
  obtain ⟨tags, front, hfront⟩ := exists_printPieces_of_not_closes h position rules
    [styleTag "dim"]
  -- the description may open tags, but it closes none, so the style is still open
  have hclosed := openTags_closing rules dim_mem place
    (List.mem_append_right tags (List.mem_singleton_self _))
  rw [heq, hfront, printPieces_tag hclosed]
  exact ⟨_, rfl⟩

theorem printLines_cons_eq_none {markup text : String} {markups : List String}
    (h : printLines rules (markup :: markups) = ⟨text, none⟩) :
    ∃ first others, line rules markup = .ok first ∧ printLines rules markups = ⟨others, none⟩ ∧
      text = first ++ others := by
  rw [printLines] at h
  cases hline : line rules markup with
  | error e =>
      rw [hline] at h
      cases h
  | ok first =>
      rw [hline] at h
      obtain ⟨htext, herror⟩ := Printout.mk.inj h
      exact ⟨first, (printLines rules markups).text, rfl, congrArg (Printout.mk _) herror,
        htext.symm⟩

section

variable {candidates : List Candidate}

theorem printLines_of_unmarked (h : ∀ c ∈ candidates, Unmarked rules.emoji c.describe.toList) :
    printLines rules (candidates.map candidateLine) =
      ⟨String.join (candidates.map shown), none⟩ := by
  induction candidates with
  | nil => rfl
  | cons c candidates ih =>
      have hrest := ih fun d hd => h d (List.mem_cons_of_mem c hd)
      rw [List.map_cons, printLines, line_candidate_of_unmarked (h c List.mem_cons_self), hrest,
        List.map_cons, String.join_cons]

theorem printLines_error_eq_none (h : ∀ c ∈ candidates, ¬HasTag closes c.describe.toList)
    (rules : Rules) : (printLines rules (candidates.map candidateLine)).error = none := by
  induction candidates with
  | nil => rfl
  | cons c candidates ih =>
      obtain ⟨text, hline⟩ := exists_line_candidate (h c List.mem_cons_self) rules
      rw [List.map_cons, printLines, hline]
      exact ih fun d hd => h d (List.mem_cons_of_mem c hd)

/-- The lines of some candidates have no more ink than the candidates. -/
theorem ink_printLines_le (hemoji : rules.emoji.Brief) {text : String}
    (h : printLines rules (candidates.map candidateLine) = ⟨text, none⟩) :
    ink text.toList ≤ ink (String.join (candidates.map shown)).toList := by
  induction candidates generalizing text with
  | nil =>
      obtain ⟨rfl, -⟩ := Printout.mk.inj h
      exact Nat.zero_le _
  | cons c candidates ih =>
      obtain ⟨first, others, hfirst, hothers, rfl⟩ := printLines_cons_eq_none h
      rw [List.map_cons, String.join_cons, String.toList_append, String.toList_append, ink_append,
        ink_append]
      exact Nat.add_le_add (ink_line_candidate_le hemoji hfirst) (ih hothers)

/-- If the lines together have the ink of the candidates, each has that of its candidate. -/
theorem unmarked_of_printLines (hemoji : rules.emoji.Brief) {text : String}
    (h : printLines rules (candidates.map candidateLine) = ⟨text, none⟩)
    (hink : inked text.toList = inked (String.join (candidates.map shown)).toList) :
    ∀ c ∈ candidates, Unmarked rules.emoji c.describe.toList := by
  induction candidates generalizing text with
  | nil => simp
  | cons c candidates ih =>
      obtain ⟨first, others, hfirst, hothers, rfl⟩ := printLines_cons_eq_none h
      have hle := ink_line_candidate_le hemoji hfirst
      have hle' := ink_printLines_le hemoji hothers
      rw [List.map_cons, String.join_cons, String.toList_append, String.toList_append, inked_append,
        inked_append] at hink
      have hlength := congrArg List.length hink
      rw [List.length_append, List.length_append] at hlength
      rw [ink, ink] at hle hle'
      obtain ⟨hhead, htail⟩ := List.append_inj hink (by omega)
      intro d hd
      rcases List.mem_cons.mp hd with rfl | hd
      · exact unmarked_of_line_candidate hemoji hfirst hhead
      · exact ih hothers htail d hd

/-- A batch is its heading and the lines of its candidates. -/
theorem batch_eq (iteration : Int) (candidates : List Candidate) (rules : Rules) :
    batch rules iteration candidates =
      ⟨layOut (heading iteration candidates).toList ++
        (printLines rules (candidates.map candidateLine)).text,
        (printLines rules (candidates.map candidateLine)).error⟩ := by
  rw [batch, printLines, line_heading]
  rfl

/-- A batch as it should be shown. -/
def shownBatch (iteration : Int) (candidates : List Candidate) : String :=
  layOut (heading iteration candidates).toList ++ String.join (candidates.map shown)

/-- A batch is shown exactly if the descriptions in it are unmarked. -/
theorem batch_eq_shown_iff (hemoji : rules.emoji.Brief) (iteration : Int) :
    batch rules iteration candidates = ⟨shownBatch iteration candidates, none⟩ ↔
      ∀ c ∈ candidates, Unmarked rules.emoji c.describe.toList := by
  rw [batch_eq, shownBatch]
  constructor
  · intro h
    obtain ⟨htext, herror⟩ := Printout.mk.inj h
    have htext := congrArg String.toList htext
    rw [String.toList_append, String.toList_append] at htext
    exact unmarked_of_printLines hemoji (congrArg (Printout.mk _) herror)
      (congrArg inked (List.append_cancel_left htext))
  · intro h
    rw [printLines_of_unmarked h]

end

/-! ### The program -/

/-- Where the display shows a batch, the campaign goes on. -/
theorem showBatch_run {σ ρ : Type} {c : Campaign.Setup σ ρ} {d : Campaign.Display σ}
    (hdisplay : c.host.display = some d) {iteration : Nat} {drawn : List Candidate}
    {s : Campaign.State σ ρ} {host : σ} (h : d.batch iteration drawn s.host = (.ok (), host)) :
    (Campaign.showBatch c iteration drawn).run.run s = (.ok (), { s with host }) := by
  unfold Campaign.showBatch
  rw [hdisplay]
  have hget : (get : Campaign.Step σ ρ (Campaign.State σ ρ)).run.run s = (.ok s, s) := rfl
  refine (run_bind_ok hget).trans ?_
  rw [h]
  rfl

theorem display_batch {σ : Type} (sys : Program.System σ) {iteration : Nat}
    {drawn : List Candidate} (h : (batch sys.libraries.console iteration drawn).error = none)
    (s : σ) :
    (Program.display sys).batch iteration drawn s =
      (.ok (), sys.print (batch sys.libraries.console iteration drawn).text s) := by
  simp [Program.display, h]

section

open Rehearsal (emojiForm emoji? emojiShown?)

theorem emojiForm_brief (name : List Char) :
    (emojiForm name).2.length ≤ 1 ∧ ':' ∉ (emojiForm name).2 := by
  unfold emojiForm
  dsimp only
  split
  · simp
  split <;> simp

theorem emoji?_ne_colon {name : String} {c : Char} (h : emoji? name = some c) : c ≠ ':' := by
  rintro rfl
  unfold emoji? at h
  split at h <;> simp at h

/-- An emoji is one character, and one more where a form is wished for. -/
theorem emojiShown?_brief : EmojiCodes.Brief emojiShown? := by
  intro name shown h
  rw [emojiShown?] at h
  obtain ⟨c, hc, rfl⟩ := Option.map_eq_some_iff.mp h
  obtain ⟨hlength, hcolon⟩ := emojiForm_brief name
  refine ⟨?_, ?_⟩
  · rw [List.length_cons]
    exact Nat.le_trans (Nat.succ_le_succ hlength) (Nat.le_add_left _ _)
  · rw [List.mem_cons, not_or]
    exact ⟨(emoji?_ne_colon hc).symm, hcolon⟩

end

/-! ### A crate with brackets in its paths -/

open Program (notepad plainRoot plainCrate plainStart)
open Rehearsal (emojiShown?)

/-- A candidate in a file with these names, on this line. -/
def sampleCandidate (names : List String) (line : Nat) (hline : 1 ≤ line) : Candidate where
  file := ⟨plainRoot.join (Path.ofNames names), Path.ofNames names, "pub fn a() {}"⟩
  narrowing := .toCrate
  span := ⟨⟨line, 1, hline, by omega⟩, ⟨line, 4, hline, by omega⟩, by simp [Position.before]⟩

/-- A batch with brackets in a path. -/
def oddPath : List Candidate := [sampleCandidate ["src", "[X]", "a.rs"] 7 (by decide)]

/-- A system that keeps what is printed and in which every command succeeds. -/
def willing : Program.System (Workspace × List String) :=
  { notepad with execute := fun _ _ _ s => (.ok .success, s) }

/-- A campaign in such a system. -/
def willingCampaign : Campaign.Setup (Workspace × List String) Unit where
  crate := ⟨plainRoot⟩
  settings := .default
  parser := Rust.parse
  source := Sampling.first
  host := Program.hostFor willing (Program.toolsFor plainStart .default) ⟨plainRoot⟩ .default
    .warning

/-- Its start with some files. -/
def willingStart (w : Workspace) : Campaign.State (Workspace × List String) Unit where
  random := ()
  host := (w, [])

theorem HasTag.of_closes (h : HasTag closes text) : HasTag beginsTag text := by
  obtain ⟨body, ⟨⟨c, rest, rfl, hc⟩, hopen, hclose⟩, hinfix⟩ := h
  obtain rfl : c = '/' := by simpa [closes] using hc
  exact ⟨_, ⟨⟨'/', rest, rfl, by decide⟩, hopen, hclose⟩, hinfix⟩

/-- A source file whose path has a closing tag in it. -/
def closingPath : Workspace where
  base := plainRoot
  entries := [([manifestName], .file []), ([sourceDirectory], .directory),
    ([sourceDirectory, "["], .directory),
    ([sourceDirectory, "[", "a].rs"], .file (Text.Utf8.encode "pub fn a() {}".toList))]

/-- What comes of a start in a directory that holds no crate. -/
def lookIn (names : List String) : Except Program.Ending Crate × Workspace × List String :=
  (Program.openCrate notepad ⟨["run"], ⟨"/", names⟩, []⟩ ".").run.run (plainCrate .directory, [])

theorem lookIn_eq {names : List String} (h : Crate.atRoot (plainCrate .directory)
      ((⟨"/", names⟩ : Path).join (Path.ofText ".")).resolved = .error ⟨⟨"/", names⟩⟩) :
    lookIn names = (Program.refuse notepad (NotACrate.message ⟨⟨"/", names⟩⟩)).run.run
      (plainCrate .directory, []) := by
  unfold lookIn Program.openCrate
  rw [Program.run_get_bind]
  dsimp only [notepad]
  rw [h]
  rfl

end Tighten.Console
