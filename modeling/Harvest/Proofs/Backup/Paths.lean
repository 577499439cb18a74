import Mathlib.Data.List.SplitBy
import Harvest.Backup.Basic
import Harvest.Proofs.Calendar.Dates

/-! # Where the file of an item lies

The file of an item is named by the text of the item, which ends in a hash of any characters. Up to
the last slash of the hash that text is a path of directories, in which a slash next to another one
means nothing and two dots mean a level up; what is behind the last slash is the name of the file.

## Main definitions

* `Flat`: an item whose hash has no slash.
* `climb`: a hash that leads up.

## Main statements

* `splitPath_append_slash`, `splitPath_slash`: a path is split at its slashes.
* `location_of_flat`, `location_of_slash`: the location of the file.
* `location_directories_iff`: the files that lie in the directory of their day.
* `exists_ne_location_eq`: a slash lets another item have the same location.
-/

namespace Harvest.Backup

open Harvest.Calendar Harvest.Text

/-! ## Paths and their names -/

/-- A path with no slash but a first one is at most one name. -/
theorem splitPath_of_tail {xs : List Char} (hne : xs ≠ []) (htail : '/' ∉ xs.tail) :
    splitPath xs = [String.ofList (xs.filter (· ≠ '/'))].filter
      fun name => name ≠ "" && name ≠ "." := by
  have hchain : xs.IsChain fun _ c => decide (c ≠ '/') = true := by
    cases xs with
    | nil => exact absurd rfl hne
    | cons c xs =>
      rw [List.tail_cons] at htail
      clear hne
      induction xs generalizing c with
      | nil => exact List.isChain_singleton c
      | cons c' xs ih =>
        obtain ⟨hc', hxs⟩ := not_or.mp (fun h => htail (List.mem_cons.mpr h))
        exact List.isChain_cons_cons.mpr ⟨decide_eq_true fun h => hc' h.symm, ih c' hxs⟩
  unfold splitPath
  rw [List.splitBy_of_isChain hne hchain]
  rfl

/-- A path is split before each slash. -/
theorem splitPath_append_slash (xs ys : List Char) :
    splitPath (xs ++ '/' :: ys) = splitPath xs ++ splitPath ('/' :: ys) := by
  unfold splitPath
  rw [List.splitBy_append_cons _ (by simp), List.map_append, List.filter_append]

/-- A slash at the end of a path means nothing. -/
theorem splitPath_append_last (xs : List Char) : splitPath (xs ++ ['/']) = splitPath xs := by
  rw [splitPath_append_slash]
  exact List.append_nil _

section names

variable {xs : List Char}

theorem filter_of_no_slash (h : '/' ∉ xs) : xs.filter (· ≠ '/') = xs := by
  rw [List.filter_eq_self]
  intro c hc
  exact decide_eq_true fun heq => h (heq ▸ hc)

/-- Of the names of a path, those that are empty or a single dot mean nothing. -/
theorem filter_name (hne : xs ≠ []) (hdot : xs ≠ ['.']) :
    [String.ofList xs].filter (fun name => name ≠ "" && name ≠ ".") = [String.ofList xs] := by
  have hne' : String.ofList xs ≠ "" := fun heq => hne (String.ofList_injective heq)
  have hdot' : String.ofList xs ≠ "." := fun heq => hdot (String.ofList_injective heq)
  simp [hne', hdot']

/-- A name with a colon is one of its own. -/
theorem splitPath_of_colon (h : '/' ∉ xs) (hcolon : ':' ∈ xs) :
    splitPath xs = [String.ofList xs] := by
  have hne : xs ≠ [] := List.ne_nil_of_mem hcolon
  have hdot : xs ≠ ['.'] := by
    intro heq
    rw [heq] at hcolon
    exact absurd hcolon (by decide)
  rw [splitPath_of_tail hne fun hmem => h (List.mem_of_mem_tail hmem), filter_of_no_slash h]
  exact filter_name hne hdot

/-- A name after a slash. -/
theorem splitPath_slash (h : '/' ∉ xs) (hne : xs ≠ []) (hdot : xs ≠ ['.']) :
    splitPath ('/' :: xs) = [String.ofList xs] := by
  have hfilter : ('/' :: xs).filter (· ≠ '/') = xs := by
    rw [List.filter_cons_of_neg (by simp)]
    exact filter_of_no_slash h
  rw [splitPath_of_tail (List.cons_ne_nil _ _) h, hfilter]
  exact filter_name hne hdot

end names

/-! ## Locations -/

/-- An item whose hash has no slash. -/
def Flat (w : WorkItem) : Prop := '/' ∉ w.hash.toList

instance (w : WorkItem) : Decidable (Flat w) := inferInstanceAs (Decidable ('/' ∉ w.hash.toList))

/-- The text of an item before its hash. -/
def label (id : UInt64) : List Char := natDigits id.toNat ++ [':']

theorem fileChars_eq (w : WorkItem) :
    fileChars w = label w.id ++ (w.hash.toList ++ ".json".toList) := by
  unfold fileChars WorkItem.chars label
  simp only [List.append_assoc, List.cons_append, List.nil_append]

theorem not_mem_label {c : Char} (hdigit : digitValue? c = none) (hcolon : c ≠ ':') (id : UInt64) :
    c ∉ label id := by
  unfold label
  rw [List.mem_append, List.mem_singleton]
  exact not_or.mpr ⟨not_mem_natDigits hdigit, hcolon⟩

theorem no_slash_label (id : UInt64) : '/' ∉ label id := not_mem_label (by decide) (by decide) id

theorem colon_mem_label (id : UInt64) : ':' ∈ label id :=
  List.mem_append_right _ List.mem_cons_self

/-- The text of an item up to a slash of its hash begins with a name that has a colon. -/
theorem splitPath_label_append (id : UInt64) (dir : List Char) :
    ∃ name more, splitPath (label id ++ dir) = name :: more := by
  have hname : ∀ {xs : List Char}, '/' ∉ xs →
      splitPath (label id ++ xs) = [String.ofList (label id ++ xs)] := by
    intro xs hxs
    apply splitPath_of_colon
    · rw [List.mem_append]
      exact not_or.mpr ⟨no_slash_label id, hxs⟩
    · exact List.mem_append_left _ (colon_mem_label id)
  by_cases hdir : '/' ∈ dir
  · -- the first slash ends the name
    obtain ⟨front, rest, rfl, hfront⟩ := List.eq_append_cons_of_mem hdir
    rw [← List.append_assoc, splitPath_append_slash, hname hfront]
    exact ⟨_, _, rfl⟩
  · rw [hname hdir]
    exact ⟨_, _, rfl⟩

section location

variable {d : Date} {w : WorkItem}

theorem no_slash_fileChars (h : Flat w) : '/' ∉ fileChars w := by
  rw [fileChars_eq, List.mem_append, List.mem_append]
  exact not_or.mpr ⟨no_slash_label w.id, not_or.mpr ⟨h, by decide⟩⟩

/-- The text of an item is cut behind its last slash, if it has one. -/
theorem location_of_front {front name : List Char} (hchars : fileChars w = front ++ name)
    (hname : '/' ∉ name) (hfront : front.reverse.takeWhile (· ≠ '/') = []) :
    location d w = (d.key :: splitPath front, String.ofList name) := by
  have hall : ∀ c ∈ name.reverse, decide (c ≠ '/') = true := by
    intro c hc
    exact decide_eq_true fun heq => hname (heq ▸ List.mem_reverse.mp hc)
  have hlast : ((fileChars w).reverse.takeWhile (· ≠ '/')).reverse = name := by
    rw [hchars, List.reverse_append, List.takeWhile_append_of_pos hall, hfront, List.append_nil,
      List.reverse_reverse]
  unfold location
  dsimp only
  rw [hlast, hchars, List.length_append, Nat.add_sub_cancel, List.take_left' rfl]

/-- Without a slash in the hash the file lies in the directory of the day. -/
theorem location_of_flat (h : Flat w) :
    location d w = ([d.key], String.ofList (fileChars w)) :=
  location_of_front (List.nil_append _).symm (no_slash_fileChars h) rfl

/-- Up to its last slash the hash names directories, and behind it the file. -/
theorem location_of_slash {dir name : List Char} (hhash : w.hash.toList = dir ++ '/' :: name)
    (h : '/' ∉ name) : location d w
      = (d.key :: splitPath (label w.id ++ dir), String.ofList (name ++ ".json".toList)) := by
  have hchars : fileChars w = (label w.id ++ dir ++ ['/']) ++ (name ++ ".json".toList) := by
    rw [fileChars_eq, hhash]
    simp only [List.append_assoc, List.cons_append, List.nil_append]
  have hname : '/' ∉ name ++ ".json".toList := by
    rw [List.mem_append]
    exact not_or.mpr ⟨h, by decide⟩
  rw [location_of_front hchars hname, splitPath_append_last]
  rw [List.reverse_append]
  exact List.takeWhile_cons_of_neg (by simp)

/-- The last slash of a hash. -/
theorem exists_last_slash (h : ¬ Flat w) :
    ∃ dir name, w.hash.toList = dir ++ '/' :: name ∧ '/' ∉ name := by
  have hmem : '/' ∈ w.hash.toList.reverse := List.mem_reverse.mpr (not_not.mp h)
  obtain ⟨name, dir, hsplit, hname⟩ := List.eq_append_cons_of_mem hmem
  refine ⟨dir.reverse, name.reverse, ?_, fun hmem => hname (List.mem_reverse.mp hmem)⟩
  have hrev := congrArg List.reverse hsplit
  rw [List.reverse_reverse, List.reverse_append, List.reverse_cons, List.append_assoc] at hrev
  exact hrev

/-- The file lies in the directory of its day, under one name, exactly if the hash has no slash. -/
theorem location_directories_iff : (location d w).1 = [d.key] ↔ Flat w := by
  constructor
  · intro hday
    by_contra hslash
    obtain ⟨dir, name, hhash, hname⟩ := exists_last_slash hslash
    obtain ⟨first, more, hsplit⟩ := splitPath_label_append w.id dir
    rw [location_of_slash hhash hname, hsplit] at hday
    cases hday
  · intro hflat
    rw [location_of_flat hflat]

/-! ## Items with the same location -/

/-- Items without a slash are told apart by the names of their files. -/
theorem fileChars_inj {w' : WorkItem} (h : fileChars w = fileChars w') : w = w' := by
  unfold fileChars WorkItem.chars at h
  have hchars := List.append_cancel_right h
  obtain ⟨hid, hhash⟩ := split_inj (not_mem_natDigits (by decide)) (not_mem_natDigits (by decide))
    hchars
  obtain ⟨id, hash⟩ := w
  obtain ⟨id', hash'⟩ := w'
  obtain rfl : id = id' := UInt64.toNat_inj.mp (natDigits_inj hid)
  obtain rfl : hash = hash' := String.toList_inj.mp hhash
  rfl

theorem location_inj {d' : Date} {w' : WorkItem} (h : Flat w) (h' : Flat w')
    (heq : location d w = location d' w') : d = d' ∧ w = w' := by
  rw [location_of_flat h, location_of_flat h'] at heq
  obtain ⟨hday, hname⟩ := Prod.mk.inj heq
  exact ⟨Date.key_inj (List.cons.inj hday).1, fileChars_inj (String.ofList_injective hname)⟩

/-- An item with a slash in its hash shares its location with another one: the slash may as well be
doubled. -/
theorem exists_ne_location_eq (d : Date) (h : ¬ Flat w) :
    ∃ w', w' ≠ w ∧ location d w' = location d w := by
  obtain ⟨dir, name, hhash, hname⟩ := exists_last_slash h
  have hdouble : (WorkItem.mk w.id (String.ofList (dir ++ ['/'] ++ '/' :: name))).hash.toList
      = dir ++ ['/'] ++ '/' :: name := String.toList_ofList
  refine ⟨⟨w.id, String.ofList (dir ++ ['/'] ++ '/' :: name)⟩, ?_, ?_⟩
  · intro heq
    have hsame : dir ++ ['/'] ++ '/' :: name = dir ++ '/' :: name := by
      rw [← hdouble, ← hhash, ← heq]
    have hlength := congrArg List.length hsame
    simp at hlength
  · rw [location_of_slash hdouble hname, location_of_slash hhash hname, ← List.append_assoc,
      splitPath_append_last]

end location

/-! ## Hashes that lead up -/

/-- A number of levels up. -/
def ups (n : Nat) : List Char := (List.replicate n ['/', '.', '.']).flatten

theorem ups_succ (n : Nat) : ups (n + 1) = ups n ++ '/' :: ['.', '.'] := by
  unfold ups
  rw [List.replicate_succ', List.flatten_append]
  rfl

/-- A hash that leads some levels up and then to a name. -/
def climb (n : Nat) (name : List Char) : String := String.ofList (ups n ++ '/' :: name)

theorem splitPath_ups (id : UInt64) (n : Nat) :
    splitPath (label id ++ ups n) = String.ofList (label id) :: List.replicate n ".." := by
  induction n with
  | zero =>
    rw [ups, List.replicate_zero, List.flatten_nil, List.append_nil, List.replicate_zero]
    exact splitPath_of_colon (no_slash_label id) (colon_mem_label id)
  | succ n ih =>
    rw [ups_succ, ← List.append_assoc, splitPath_append_slash, ih,
      splitPath_slash (by decide) (by decide) (by decide), List.replicate_succ']
    rfl

/-- Such a hash leads into a directory of its own and from there up. -/
theorem location_climb (d : Date) (id : UInt64) (n : Nat) {name : List Char} (h : '/' ∉ name) :
    location d ⟨id, climb n name⟩
      = (d.key :: String.ofList (label id) :: List.replicate n "..",
        String.ofList (name ++ ".json".toList)) := by
  have hhash : (WorkItem.mk id (climb n name)).hash.toList = ups n ++ '/' :: name :=
    String.toList_ofList
  rw [location_of_slash hhash h, splitPath_ups]

end Harvest.Backup
