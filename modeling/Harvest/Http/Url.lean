import Harvest.Http.Host

/-! # Addresses

An address begins with a scheme. Those of the web name a host, with an optional number after a
colon; a text without a scheme is no address by itself.
-/

namespace Harvest.Http

open Harvest.Text

/-- An address, as far as it decides where a request goes. -/
structure Url where
  scheme : String
  /-- Host and number as written; none when the scheme needs no host. -/
  authority : Option String
deriving DecidableEq

namespace Url

/-- Schemes whose addresses name a host. -/
def hostSchemes : List String := ["http", "https", "ws", "wss", "ftp"]

/-- Drops control characters and spaces at both ends, and line ends and tabs throughout. -/
def clean (s : List Char) : List Char :=
  let blank (c : Char) : Bool := c.toNat ≤ 0x20
  let s := ((s.dropWhile blank).reverse.dropWhile blank).reverse
  s.filter fun c => c ≠ '\t' ∧ c ≠ '\n' ∧ c ≠ '\r'

/-- The scheme in lower case, and what follows its colon. -/
def scheme? (s : List Char) : Option (String × List Char) :=
  let name := s.takeWhile fun c => c.isAlphanum || c == '+' || c == '-' || c == '.'
  match name, s.drop name.length with
  | c :: _, ':' :: rest =>
    if c.isAlpha then some ((String.ofList name).toLower, rest) else none
  | _, _ => none

/-- The text after the last at sign, and whether there is one. -/
def afterUser (s : List Char) : List Char × Bool :=
  if s.contains '@' then ((s.reverse.takeWhile (· ≠ '@')).reverse, true) else (s, false)

/-- Host and number; the colon between them stands outside brackets. -/
def splitAuthority (s : List Char) : List Char × Option (List Char) :=
  let (bracketed, rest) :=
    match s with
    | '[' :: _ =>
      let inner := s.takeWhile (· ≠ ']')
      (inner ++ (s.drop inner.length).take 1, s.drop (inner.length + 1))
    | _ => ([], s)
  let tail := rest.takeWhile (· ≠ ':')
  (bracketed ++ tail, (rest.drop tail.length).tail?)

/-- Whether a text can stand for the number after a host; it may be empty. -/
def isHostNumber (s : List Char) : Bool := s.isEmpty || (readNat? s).any (· ≤ 65535)

/-- Reads an address. -/
def parse? (s : String) : Option Url := do
  let (scheme, rest) ← scheme? (clean s.toList)
  if hostSchemes.contains scheme then
    let rest := rest.dropWhile fun c => c = '/' ∨ c = '\\'
    let authority := rest.takeWhile fun c => c ≠ '/' ∧ c ≠ '\\' ∧ c ≠ '?' ∧ c ≠ '#'
    let (host, number) := splitAuthority (afterUser authority).1
    if isHost host ∧ number.all isHostNumber then some ⟨scheme, some (String.ofList authority)⟩
    else none
  else
    match rest with
    | '/' :: '/' :: rest =>
      let authority := rest.takeWhile fun c => c ≠ '/' ∧ c ≠ '?' ∧ c ≠ '#'
      let (host, number) := splitAuthority (afterUser authority).1
      if isOpaqueHost host ∧ number.all isHostNumber then
        some ⟨scheme, some (String.ofList authority)⟩
      else none
    | _ => some ⟨scheme, none⟩

/-- Whether requests can be sent to the address. -/
def isWeb (u : Url) : Bool := u.scheme == "http" || u.scheme == "https"

end Url

/-! ## Header values -/

/-- Whether a text may be sent as the value of a header: no control characters but the tab. -/
def isHeaderValue (s : String) : Bool :=
  (bytesOf s).all fun b => (32 ≤ b && b != 127) || b == 9

/-- A base address without slashes at its end, followed by a path. -/
def join (base path : String) : String :=
  String.ofList ((base.toList.reverse.dropWhile (· = '/')).reverse ++ path.toList)

end Harvest.Http
