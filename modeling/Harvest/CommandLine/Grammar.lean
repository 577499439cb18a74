/-! # Reading command lines

A command line is a list of words. An option starts with a dash: a long one has two dashes and a
name, a short one has one dash and a letter. Some options take a value, which follows after an
equals sign, directly after the letter, or as the next word; a next word that looks like an option
is no value. After a word of two dashes nothing is an option.

The words are read one after another, and the first one that halts the reading decides.

## Main definitions

* `Grammar`: the options and words that are known, and what each does to a draft.
* `Grammar.read`: reads words into a draft.
-/

namespace Harvest.CommandLine

/-! ## Grammars -/

/-- Why the reading halts. -/
inductive Halt where
  /-- Help was asked for. -/
  | help
  | version
  /-- The command line is not understood. -/
  | usage
deriving DecidableEq, Repr

/-- What an option does to a draft. -/
inductive OptionKind (σ : Type) where
  | flag (set : σ → Except Halt σ)
  | valued (set : String → σ → Except Halt σ)

/-- The options and words that are known. -/
structure Grammar (σ : Type) where
  long : String → Option (OptionKind σ)
  short : Char → Option (OptionKind σ)
  /-- What a word does. If words are not known here, the reading stops before the first one. -/
  word : Option (String → σ → Except Halt σ)

/-! ## Words -/

/-- What a word of the command line is. -/
inductive Token where
  /-- Nothing after it is an option. -/
  | escape
  | long (name : String) (value : Option String)
  | short (letter : Char) (more : List Char)
  | word (s : String)
deriving DecidableEq

/-- The parts of a long option before and after its equals sign. -/
def splitLong (cs : List Char) : Token :=
  let name := String.ofList (cs.takeWhile (· ≠ '='))
  match cs.dropWhile (· ≠ '=') with
  | [] => .long name none
  | _ :: value => .long name (some (String.ofList value))

def Token.of (s : String) : Token :=
  match s.toList with
  | ['-', '-'] => .escape
  | '-' :: '-' :: cs => splitLong cs
  | '-' :: c :: more => .short c more
  | _ => .word s

/-- Whether a word can be the value of the option before it. -/
def isValue (s : String) : Bool :=
  match Token.of s with
  | .word _ => true
  | _ => false

/-! ## Reading -/

namespace Grammar

variable {σ : Type}

/-- Sets an option that takes a value, which may be the next word. -/
def setValued (set : String → σ → Except Halt σ) (value : Option String) (rest : List String)
    (s : σ) : Except Halt (σ × List String) :=
  match value, rest with
  | some v, _ => (set v s).map fun s => (s, rest)
  | none, v :: rest => if isValue v then (set v s).map fun s => (s, rest) else .error .usage
  | none, [] => .error .usage

/-- Sets an option. -/
def setOption (kind : Option (OptionKind σ)) (value : Option String) (rest : List String) (s : σ) :
    Except Halt (σ × List String) :=
  match kind with
  | none => .error .usage
  | some (.flag set) =>
    if value.isSome then .error .usage else (set s).map fun s => (s, rest)
  | some (.valued set) => setValued set value rest s

/-- The value written directly after a letter. -/
def attached : List Char → Option String
  | [] => none
  | '=' :: cs => some (String.ofList cs)
  | cs => some (String.ofList cs)

/-- Reads words into a draft, at most `fuel` ones; the result names the words not read. -/
def readWords (g : Grammar σ) : Nat → List String → σ → Except Halt (σ × List String)
  | 0, ws, s => .ok (s, ws)
  | _, [], s => .ok (s, [])
  | fuel + 1, w :: rest, s =>
    match Token.of w with
    | .escape =>
      match g.word with
      | none => if rest.isEmpty then .ok (s, []) else .error .usage
      | some set => (rest.foldlM (fun s w => set w s) s).map fun s => (s, [])
    | .long name value => do
      let (s, rest) ← setOption (g.long name) value rest s
      g.readWords fuel rest s
    | .short letter more => do
      let (s, rest) ← setOption (g.short letter) (attached more) rest s
      g.readWords fuel rest s
    | .word _ =>
      match g.word with
      | none => .ok (s, w :: rest)
      | some set => do
        let s ← set w s
        g.readWords fuel rest s

/-- Reads words into a draft; the result names the words not read. -/
def read (g : Grammar σ) (ws : List String) (s : σ) : Except Halt (σ × List String) :=
  g.readWords ws.length ws s

end Grammar

end Harvest.CommandLine
