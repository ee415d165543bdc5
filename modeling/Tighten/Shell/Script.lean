import Tighten.Text.Blank

/-
Scripts of a small shell, and how they are read.

A script is made of simple commands: words, with where their streams go.  Commands are joined by
semicolons and newlines, by `&&` and `||`, by pipes, and can be put aside with `&`, in parentheses or
in a condition.  There are no loops and no functions, so a script always ends.
-/
namespace Tighten.Shell

/-- A piece of a word. -/
inductive Piece where
  | text (chars : List Char) (quoted : Bool)
  /-- The value of a parameter, or another text where it has none. -/
  | parameter (name : String) (otherwise : List Char) (quoted : Bool)
deriving DecidableEq, Repr

/-- A word before its parameters are replaced. -/
abbrev Word := List Piece

/-- Where a stream is sent or taken from. -/
inductive Direction where
  | input
  | output
  | append
  /-- Where another stream goes. -/
  | same
deriving DecidableEq, Repr

/-- The smallest parts of a script. -/
inductive Token where
  | word (word : Word)
  | mark (text : String)
  | redirect (stream : Nat) (direction : Direction)
deriving DecidableEq, Repr

/-! ### Tokens -/

/-- Whether a character can be part of a parameter's name. -/
def isNameChar (c : Char) : Bool :=
  c.isAlphanum || c = '_'

/-- The parameter after a dollar sign, and the rest of the text. -/
def parameterAt? (quoted : Bool) : List Char → Option (Piece × List Char)
  | '{' :: rest =>
    let name := rest.takeWhile isNameChar
    let after := rest.drop name.length
    let inside := after.takeWhile (· ≠ '}')
    let otherwise := match inside with
      | ':' :: '-' :: text => text
      | '-' :: text => text
      | _ => []
    some (.parameter (String.ofList name) otherwise quoted, after.drop (inside.length + 1))
  | c :: rest =>
    if c.isDigit || c = '$' || c = '?' || c = '#' || c = '@' then
      some (.parameter (String.ofList [c]) [] quoted, rest)
    else if isNameChar c then
      let name := (c :: rest).takeWhile isNameChar
      some (.parameter (String.ofList name) [] quoted, (c :: rest).drop name.length)
    else none
  | [] => none

/-- The pieces up to the closing quotation mark, and the rest of the text. -/
def quotedPieces : (fuel : Nat) → List Char → List Piece × List Char
  | 0, text => ([], text)
  | _, [] => ([], [])
  | fuel + 1, c :: rest =>
    let go (p : Piece) (rest : List Char) :=
      let (ps, rest) := quotedPieces fuel rest
      (p :: ps, rest)
    match c, rest with
    | '"', _ => ([], rest)
    | '\\', d :: rest' =>
      if d = '"' ∨ d = '\\' ∨ d = '$' then go (.text [d] true) rest' else go (.text ['\\'] true) rest
    | '$', _ =>
      match parameterAt? true rest with
      | some (p, rest) => go p rest
      | none => go (.text ['$'] true) rest
    | _, _ => go (.text [c] true) rest

/-- The mark at the start of a text, and its length. -/
def markAt? : List Char → Option (String × Nat)
  | '&' :: '&' :: _ => some ("&&", 2)
  | '|' :: '|' :: _ => some ("||", 2)
  | '&' :: _ => some ("&", 1)
  | '|' :: _ => some ("|", 1)
  | ';' :: _ => some (";", 1)
  | '\n' :: _ => some (";", 1)
  | '(' :: _ => some ("(", 1)
  | ')' :: _ => some (")", 1)
  | _ => none

/-- The redirection at the start of a text, and its length. -/
def directionAt? : List Char → Option (Direction × Nat)
  | '>' :: '>' :: _ => some (.append, 2)
  | '>' :: '&' :: _ => some (.same, 2)
  | '>' :: _ => some (.output, 1)
  | '<' :: _ => some (.input, 1)
  | _ => none

/-- The tokens with the word read so far before them. -/
def closeWord (current : Option Word) (tokens : List Token) : List Token :=
  match current with
  | none => tokens
  | some w => .word w :: tokens

/-- The number of the stream that a redirection is for, if the word before it is one. -/
def streamBefore (current : Option Word) (direction : Direction) : Nat × Option Word :=
  match current with
  | some [.text [d] false] =>
    if d.isDigit then (d.toNat - 48, none) else (if direction = .input then 0 else 1, current)
  | _ => (if direction = .input then 0 else 1, current)

/-- The tokens of a text, where part of a word may have been read already. -/
def tokens : (fuel : Nat) → (current : Option Word) → List Char → List Token
  | 0, current, _ => closeWord current []
  | _, current, [] => closeWord current []
  | fuel + 1, current, c :: rest =>
    let extend (p : Piece) (rest : List Char) := tokens fuel (some (current.getD [] ++ [p])) rest
    match markAt? (c :: rest), directionAt? (c :: rest) with
    | some (mark, n), _ => closeWord current (.mark mark :: tokens fuel none ((c :: rest).drop n))
    | none, some (direction, n) =>
      let (stream, current) := streamBefore current direction
      closeWord current (.redirect stream direction :: tokens fuel none ((c :: rest).drop n))
    | none, none =>
      if Text.isBlank c then closeWord current (tokens fuel none rest)
      else if c = '#' ∧ current.isNone then tokens fuel none (rest.dropWhile (· ≠ '\n'))
      else if c = '\'' then
        let inside := rest.takeWhile (· ≠ '\'')
        extend (.text inside true) (rest.drop (inside.length + 1))
      else if c = '"' then
        let (ps, rest) := quotedPieces fuel rest
        tokens fuel (some (current.getD [] ++ .text [] true :: ps)) rest
      else if c = '\\' then
        match rest with
        | d :: rest => extend (.text [d] true) rest
        | [] => extend (.text ['\\'] true) []
      else if c = '$' then
        match parameterAt? false rest with
        | some (p, rest) => extend p rest
        | none => extend (.text ['$'] false) rest
      else extend (.text [c] false) rest

/-! ### Scripts -/

/-- A redirection of a stream to what a word names. -/
structure Redirect where
  stream : Nat
  direction : Direction
  target : Word
deriving DecidableEq, Repr

/-- A script. -/
inductive Script where
  /-- Nothing. -/
  | skip
  | simple (words : List Word) (redirects : List Redirect)
  /-- The second only if the first succeeds. -/
  | andThen (first second : Script)
  /-- The second only if the first fails. -/
  | orElse (first second : Script)
  | chain (first second : Script)
  /-- The output of the first is the input of the second. -/
  | pipe (first second : Script)
  /-- Succeeds if the script fails. -/
  | invert (script : Script)
  /-- In a shell of its own. -/
  | apart (script : Script)
  /-- While the rest goes on. -/
  | aside (script : Script)
  | choose (condition yes no : Script)
deriving Repr

/-- The text of a piece that is neither quoted nor a parameter. -/
def Piece.plain? : Piece → Option (List Char)
  | .text chars false => some chars
  | _ => none

/-- The text of a word without quotation or parameters. -/
def plainWord? (w : Word) : Option String :=
  (w.mapM Piece.plain?).map fun parts => String.ofList parts.flatten

/-- Whether a token is a word with this text. -/
def isWord (text : String) : Token → Bool
  | .word w => plainWord? w == some text
  | _ => false

/-- The words that end a part of a condition. -/
def closers : List String := ["then", "else", "fi"]

/-- Whether a token ends a list of commands. -/
def closesList : Token → Bool
  | .mark ")" => true
  | t => closers.any fun w => isWord w t

/-- Reads the words and redirections of a simple command. -/
def simpleFrom (words : List Word) (redirects : List Redirect) :
    List Token → Script × List Token
  | .word w :: rest => simpleFrom (words ++ [w]) redirects rest
  | .redirect stream direction :: .word w :: rest =>
    simpleFrom words (redirects ++ [⟨stream, direction, w⟩]) rest
  | rest => (.simple words redirects, rest)

/-- The tokens after a word that must come next, if it does. -/
def expect (text : String) : List Token → List Token
  | t :: rest => if isWord text t then rest else t :: rest
  | [] => []

mutual

/-- Reads one command. -/
def commandFrom : (fuel : Nat) → List Token → Script × List Token
  | 0, ts => (.skip, ts)
  | fuel + 1, ts =>
    match ts with
    | .mark "(" :: rest =>
      let (inner, rest) := listFrom fuel rest
      (.apart inner, rest.drop 1)
    | t :: rest =>
      if isWord "!" t then
        let (inner, rest) := commandFrom fuel rest
        (.invert inner, rest)
      else if isWord "if" t then
        let (condition, rest) := listFrom fuel rest
        let (yes, rest) := listFrom fuel (expect "then" rest)
        match rest with
        | u :: rest =>
          if isWord "else" u then
            let (no, rest) := listFrom fuel rest
            (.choose condition yes no, expect "fi" rest)
          else (.choose condition yes .skip, rest)
        | [] => (.choose condition yes .skip, [])
      else simpleFrom [] [] (t :: rest)
    | [] => (.skip, [])

/-- Reads commands joined by pipes, after one that is already read. -/
def pipesFrom : (fuel : Nat) → Script → List Token → Script × List Token
  | 0, first, ts => (first, ts)
  | fuel + 1, first, ts =>
    match ts with
    | .mark "|" :: rest =>
      let (next, rest) := commandFrom fuel rest
      pipesFrom fuel (.pipe first next) rest
    | _ => (first, ts)

/-- Reads commands joined by `&&` and `||`, after one that is already read. -/
def junctionsFrom : (fuel : Nat) → Script → List Token → Script × List Token
  | 0, first, ts => (first, ts)
  | fuel + 1, first, ts =>
    match ts with
    | .mark "&&" :: rest =>
      let (c, rest) := commandFrom fuel rest
      let (next, rest) := pipesFrom fuel c rest
      junctionsFrom fuel (.andThen first next) rest
    | .mark "||" :: rest =>
      let (c, rest) := commandFrom fuel rest
      let (next, rest) := pipesFrom fuel c rest
      junctionsFrom fuel (.orElse first next) rest
    | _ => (first, ts)

/-- Reads commands one after the other. -/
def listFrom : (fuel : Nat) → List Token → Script × List Token
  | 0, ts => (.skip, ts)
  | fuel + 1, ts =>
    match ts with
    | [] => (.skip, [])
    | .mark ";" :: rest => listFrom fuel rest
    | t :: _ =>
      if closesList t then (.skip, ts)
      else
        let (c, rest) := commandFrom fuel ts
        let (c, rest) := pipesFrom fuel c rest
        let (c, rest) := junctionsFrom fuel c rest
        match rest with
        | .mark "&" :: rest =>
          let (next, rest) := listFrom fuel rest
          (.chain (.aside c) next, rest)
        | _ =>
          let (next, rest) := listFrom fuel rest
          (.chain c next, rest)

end

/-- The script that a text holds. -/
def Script.ofText (text : String) : Script :=
  let chars := text.toList
  let ts := tokens (chars.length + 1) none chars
  (listFrom (3 * ts.length + 3) ts).1

end Tighten.Shell
