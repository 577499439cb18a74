import Harvest.Text.Digits

/-! # What is logged

The log level of the settings is a list of directives, with commas between them: a level, a target,
or a target with a level. The most specific directive for a target counts; a target without a level
is logged at every level, and without any directive only errors are logged.
-/

namespace Harvest.CommandLine

open Harvest.Text

/-- How much is logged: 0 is nothing, 1 errors, 2 warnings, 3 messages, and more beyond. -/
abbrev LogLevel := Nat

def messageLevel : LogLevel := 3

/-- Reads a level: a word in small or capital letters, or a digit. -/
def readLevel? (s : String) : Option LogLevel :=
  let names := ["off", "error", "warn", "info", "debug", "trace"]
  let lowered := String.ofList (s.toList.map Char.toLower)
  match names.idxOf? lowered with
  | some n => some n
  | none =>
    match s.toList with
    | [c] => (digitValue? c).filter fun n => decide (n ≤ 5)
    | _ => none

/-- A directive: its target, which is empty if it stands for all of them, and the level. -/
structure Directive where
  target : String
  level : LogLevel
deriving DecidableEq, Repr

/-- Whether a text can name a target. -/
def isTarget (s : String) : Bool :=
  !s.isEmpty && s.toList.all fun c => c.isAlphanum || c = '_' || c = ':' || c = '-'

/-- Reads a directive; one that is not understood says nothing. -/
def Directive.read? (s : String) : Option Directive :=
  match readLevel? s with
  | some level => some ⟨"", level⟩
  | none =>
    let target := String.ofList (s.toList.takeWhile (· ≠ '='))
    match s.toList.dropWhile (· ≠ '=') with
    | [] => if isTarget target then some ⟨target, 5⟩ else none
    | _ :: value =>
      if isTarget target then (readLevel? (String.ofList value)).map fun l => ⟨target, l⟩ else none

/-- The directives of a text. -/
def directives (s : String) : List Directive :=
  (s.splitOn ",").filterMap Directive.read?

/-- The level that is logged for a target: of the directives that name it or a beginning of it the
longest counts, of equally long ones the last. -/
def levelFor (target : String) (ds : List Directive) : LogLevel :=
  let named := ds.filter fun d => d.target.toList.isPrefixOf target.toList
  match named.foldl (fun best d =>
      match best with
      | some (b : Directive) => if b.target.length ≤ d.target.length then some d else best
      | none => some d) none with
  | some d => d.level
  | none => if ds.isEmpty then 1 else 0

/-- Whether the messages of the program are logged. -/
def logsMessages (level : String) : Bool :=
  decide (messageLevel ≤ levelFor "killfeed" (directives level))

end Harvest.CommandLine
