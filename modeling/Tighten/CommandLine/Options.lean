import Tighten.Text.Similar

/-
Options on a command line.

A word that begins with a dash is an option or a cluster of one-letter options.  A long option may
carry its value after an equals sign; otherwise the value is the next word, whatever it looks like.
In a cluster, a letter that takes a value takes the rest of the cluster.  Two dashes alone end the
options.

A command either refuses options that it does not know or passes them on with its arguments.
-/
namespace Tighten.CommandLine

/-- An option of a command. -/
structure Flag where
  /-- The name with two dashes. -/
  long : String
  /-- The letter that may be used in its place. -/
  short : Option Char := none
  takesValue : Bool := false
deriving DecidableEq, Repr

/-- How a command reads its words. -/
structure Grammar where
  flags : List Flag
  /-- Whether options may come after arguments. -/
  interspersed : Bool := true
  /-- Whether options that are not known are passed on as arguments. -/
  passesUnknown : Bool := false
deriving DecidableEq, Repr

/-- Why words cannot be read. -/
inductive OptionError where
  | unknown (name : String) (close : List String)
  | missingValue (name : String)
  | unwantedValue (name : String)
deriving DecidableEq, Repr

/-- An option in use, with its value if it takes one. -/
structure Use where
  flag : Flag
  value : String := ""
deriving DecidableEq, Repr

/-- What words were read as. -/
structure Words where
  uses : List Use := []
  arguments : List String := []
deriving DecidableEq, Repr

/-- What one word was read as. -/
structure Word where
  uses : List Use := []
  /-- What is passed on of the word. -/
  passed : List String := []
  /-- An option, under the name it was given by, whose value is the next word. -/
  pending : Option (Flag × String) := none
deriving DecidableEq, Repr

namespace Grammar

/-- The option with this long name. -/
def long? (g : Grammar) (name : String) : Option Flag :=
  g.flags.find? fun f => f.long == name

/-- The option with this letter. -/
def short? (g : Grammar) (letter : Char) : Option Flag :=
  g.flags.find? fun f => f.short == some letter

/-- The name of a one-letter option. -/
def letterName (letter : Char) : String := String.ofList ['-', letter]

/-- Reads the letters of a cluster, of which some unknown ones came before. -/
def cluster (g : Grammar) : (unknown : List Char) → List Char → Except OptionError Word
  | unknown, [] =>
    .ok { passed := if unknown.isEmpty then [] else [String.ofList ('-' :: unknown)] }
  | unknown, letter :: rest =>
    match g.short? letter with
    | none =>
      if g.passesUnknown then cluster g (unknown ++ [letter]) rest
      else .error (.unknown (letterName letter) [])
    | some flag =>
      if flag.takesValue then
        let passed := if unknown.isEmpty then [] else [String.ofList ('-' :: unknown)]
        if rest.isEmpty then .ok { passed, pending := some (flag, letterName letter) }
        else .ok { uses := [⟨flag, String.ofList rest⟩], passed }
      else (cluster g unknown rest).map fun w => { w with uses := ⟨flag, ""⟩ :: w.uses }

/-- Reads a word that begins with a dash. -/
def option (g : Grammar) (word : String) : Except OptionError Word :=
  let name := String.ofList (word.toList.takeWhile (· ≠ '='))
  let attached := word.toList.drop (name.length + 1)
  match g.long? name with
  | some flag =>
    if flag.takesValue then
      if name.length < word.length then .ok { uses := [⟨flag, String.ofList attached⟩] }
      else .ok { pending := some (flag, name) }
    else if name.length < word.length then .error (.unwantedValue name)
    else .ok { uses := [⟨flag, ""⟩] }
  | none =>
    if "--".toList.isPrefixOf word.toList then
      if g.passesUnknown then .ok { passed := [word] }
      else .error (.unknown name (Text.closeWords name (g.flags.map Flag.long)))
    else cluster g [] (word.toList.drop 1)

/-- Whether a word is an option or a cluster of them. -/
def isOption (word : String) : Bool :=
  word.toList.head? == some '-' && 1 < word.length

/-- Words with more before them. -/
def prepend (uses : List Use) (arguments : List String) (w : Words) : Words :=
  ⟨uses ++ w.uses, arguments ++ w.arguments⟩

/-- Reads the words of a command line. -/
def read (g : Grammar) : List String → Except OptionError Words
  | [] => .ok {}
  | word :: rest =>
    if word = "--" then .ok { arguments := rest }
    else if isOption word then
      match g.option word with
      | .error e => .error e
      | .ok w =>
        match w.pending with
        | none => (read g rest).map (prepend w.uses w.passed)
        | some (flag, name) =>
          match rest with
          | [] => .error (.missingValue name)
          | value :: rest => (read g rest).map (prepend (w.uses ++ [⟨flag, value⟩]) w.passed)
    else if g.interspersed then (read g rest).map (prepend [] [word])
    else .ok { arguments := word :: rest }

end Grammar

namespace Words

/-- Whether an option is used. -/
def has (w : Words) (long : String) : Bool :=
  w.uses.any fun u => u.flag.long == long

/-- The value of an option; the last use counts. -/
def value? (w : Words) (long : String) : Option String :=
  ((w.uses.filter fun u => u.flag.long == long).getLast?).map Use.value

/-- The first of some options that is used. -/
def first? (w : Words) (longs : List String) : Option String :=
  (w.uses.map fun u => u.flag.long).find? longs.contains

end Words

end Tighten.CommandLine
