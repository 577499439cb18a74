import Harvest.Backfill.Report
import Harvest.CommandLine.Grammar

/-! # Commands

The commands of the program with their options. Help is available for the program and for each of
its commands, and the settings file may be named before the command or after it.
-/

namespace Harvest.CommandLine

open Harvest.Calendar Harvest.Text Harvest.Backfill

/-! ## Commands -/

/-- What the program is told to do. -/
inductive Command where
  | serve
  | importing (maxConcurrency spacingMs : Option Nat) (drain : Bool)
  | add (items : List WorkItem)
  | history (start stop : Option Date) (direction : Direction) (statsOnly : Bool)
  | tracking
deriving DecidableEq

/-- A command and the settings file. -/
structure Invocation where
  settings : Option String
  command : Command
deriving DecidableEq

/-! ## Options -/

/-- What is read of a command line. -/
structure Draft where
  settings : Option String
  maxConcurrency : Option Nat
  spacingMs : Option Nat
  drain : Bool
  items : List WorkItem
  start : Option Date
  stop : Option Date
  direction : Option Direction
  stats : Bool

namespace Draft

def empty : Draft :=
  { settings := none, maxConcurrency := none, spacingMs := none, drain := false, items := []
    start := none, stop := none, direction := none, stats := false }

end Draft

/-- A value that is given once. -/
def once {α : Type} (before : Option α) (read : String → Option α) (s : String) :
    Except Halt (Option α) :=
  match before, read s with
  | none, some x => .ok (some x)
  | _, _ => .error .usage

/-- A natural number of 64 bits. -/
def readWord (s : String) : Option Nat := (readUInt64? s.toList).map UInt64.toNat

/-- A path, which is not empty. -/
def readPath (s : String) : Option String := if s.isEmpty then none else some s

/-- The option that names the settings file. -/
def settingsOption : OptionKind Draft :=
  .valued fun v d => do return { d with settings := ← once d.settings readPath v }

/-- The option that asks for help. -/
def helpOption : OptionKind Draft := .flag fun _ => .error .help

/-- A grammar with the options of all commands. -/
def grammar (own : String → Option (OptionKind Draft))
    (word : Option (String → Draft → Except Halt Draft)) : Grammar Draft :=
  { long := fun name =>
      if name = "config" then some settingsOption
      else if name = "help" then some helpOption
      else own name
    short := fun letter =>
      if letter = 'c' then some settingsOption
      else if letter = 'h' then some helpOption
      else none
    word }

/-- A command that takes no words refuses them. -/
def noWords : Option (String → Draft → Except Halt Draft) := some fun _ _ => .error .usage

/-- A flag that is given once. -/
def flagOnce (before : Bool) : Except Halt Bool := if before then .error .usage else .ok true

def plainGrammar : Grammar Draft := grammar (fun _ => none) noWords

def importGrammar : Grammar Draft :=
  grammar (fun name =>
    if name = "max-concurrency" then
      some (.valued fun v d => do
        return { d with maxConcurrency := ← once d.maxConcurrency readWord v })
    else if name = "spacing-ms" then
      some (.valued fun v d => do return { d with spacingMs := ← once d.spacingMs readWord v })
    else if name = "drain" then
      some (.flag fun d => do return { d with drain := ← flagOnce d.drain })
    else none) noWords

def addGrammar : Grammar Draft :=
  grammar (fun _ => none) (some fun w d =>
    match WorkItem.parse w with
    | .ok item => .ok { d with items := d.items ++ [item] }
    | .error _ => .error .usage)

def historyGrammar : Grammar Draft :=
  grammar (fun name =>
    if name = "start" then
      some (.valued fun v d => do return { d with start := ← once d.start Date.ofKey? v })
    else if name = "end" then
      some (.valued fun v d => do return { d with stop := ← once d.stop Date.ofKey? v })
    else if name = "direction" then
      some (.valued fun v d => do
        return { d with direction := ← once d.direction (fun v => (Direction.parse v).toOption) v })
    else if name = "stats" then
      some (.flag fun d => do return { d with stats := ← flagOnce d.stats })
    else none) noWords

/-- The options before the command. -/
def topGrammar : Grammar Draft :=
  let g := grammar (fun name =>
    if name = "version" then some (.flag fun _ => .error .version) else none) none
  { g with short := fun letter =>
      if letter = 'V' then some (.flag fun _ => .error .version) else g.short letter }

/-! ## Reading -/

def commandNames : List String := ["serve", "import", "add", "history", "tracking"]

/-- Help about a command, or about help, halts; about anything else it is not understood. -/
def readHelp : List String → Halt
  | [] => .help
  | [name] => if commandNames.contains name || name == "help" then .help else .usage
  | _ => .usage

/-- Reads the options of a command. -/
def readCommand (name : String) (ws : List String) : Except Halt (Draft × Command) := do
  match name with
  | "serve" => do
    let (d, _) ← plainGrammar.read ws .empty
    return (d, .serve)
  | "tracking" => do
    let (d, _) ← plainGrammar.read ws .empty
    return (d, .tracking)
  | "import" => do
    let (d, _) ← importGrammar.read ws .empty
    return (d, .importing d.maxConcurrency d.spacingMs d.drain)
  | "add" => do
    let (d, _) ← addGrammar.read ws .empty
    if d.items.isEmpty then .error .usage else return (d, .add d.items)
  | "history" => do
    let (d, _) ← historyGrammar.read ws .empty
    return (d, .history d.start d.stop (d.direction.getD .forward) d.stats)
  | "help" => .error (readHelp ws)
  | _ => .error .usage

/-- Reads a command line. The settings file named after the command counts before the other. -/
def Invocation.parse (ws : List String) : Except Halt Invocation := do
  match ← topGrammar.read ws .empty with
  | (_, []) => .error .usage
  | (top, name :: rest) => do
    let (d, command) ← readCommand name rest
    return { settings := d.settings.or top.settings, command }

end Harvest.CommandLine
