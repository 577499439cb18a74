import Harvest.Proofs.Backup.Paths

/-! # What a backup writes to

An item whose hash has no slash is kept in the directory of its day, and nothing outside of it
changes, whatever the folder holds. A hash with a slash leads elsewhere: it can name any level above
the root as well. A folder has no top and no longest path, so on a file system this holds of the
levels below its top, as far as the path that leads there is not too long.

## Main definitions

* `dayPlace`: the directory of a day.

## Main statements

* `entry?_store_of_flat`: what is left as it is.
* `entry?_store_climb`: a file far above the root.
* `places_of_backup`: where files are put, and which items share a file.
-/

namespace Harvest.Backup

open Harvest.Calendar Harvest.Json Harvest.Text

/-! ## Entries -/

namespace Folder

variable {f : Folder} {p q : Place} {e : Entry} {name : String}

theorem lookup_filter_ne (entries : List (Place × Entry)) (h : q ≠ p) :
    (entries.filter (·.1 ≠ p)).lookup q = entries.lookup q := by
  induction entries with
  | nil => rfl
  | cons entry entries ih =>
    obtain ⟨p', e'⟩ := entry
    by_cases hp : p' = p
    · -- an entry that goes is none of the place looked for
      have hother : (q == p') = false := by simpa [hp] using h
      rw [List.filter_cons_of_neg (by simp [hp]), ih, List.lookup_cons, hother]
    · rw [List.filter_cons_of_pos (by simp [hp]), List.lookup_cons, List.lookup_cons, ih]

theorem entry?_put_ne (h : q ≠ p) : Folder.entry? (f.put p e) q = f.entry? q := by
  have hother : (q == p) = false := by simpa using h
  unfold entry? put
  split
  · rfl
  · rw [List.lookup_append, lookup_filter_ne f.entries h, List.lookup_cons, hother]
    exact Option.or_none

theorem entry?_put_self (h : p.names ≠ []) : Folder.entry? (f.put p e) p = some e := by
  have hgone : (f.entries.filter (·.1 ≠ p)).lookup p = none := by
    rw [List.lookup_eq_none_iff]
    intro entry hentry
    have hne : entry.1 ≠ p := of_decide_eq_true (List.mem_filter.mp hentry).2
    exact bne_iff_ne.mpr hne.symm
  unfold entry? put
  rw [if_neg h, List.lookup_append, hgone, List.lookup_cons, beq_self_eq_true]
  rfl

theorem names_child (p : Place) (name : String) : (p.child name).names ≠ [] := by
  simp [Place.child]

/-- To enter a directory makes no other one. -/
theorem entry?_enter_ne (h : q ≠ p.child name) : Folder.entry? (f.enter p name).1 q = f.entry? q := by
  unfold enter
  split
  · rfl
  · split
    · split
      · rfl
      · rfl
      · exact entry?_put_ne h
    · rfl

/-- By a name of its own a directory is entered, or none is. -/
theorem enter_of_ne_dots (h : name ≠ "..") {r : Place} (hr : (f.enter p name).2 = some r) :
    r = p.child name := by
  unfold enter at hr
  rw [if_neg h] at hr
  split at hr
  · split at hr
    · exact (Option.some.inj hr).symm
    · cases hr
    · exact (Option.some.inj hr).symm
  · cases hr

/-- A missing directory is made. -/
theorem enter_missing (h : name ≠ "..") (hname : isName name = true)
    (hmissing : f.entry? (p.child name) = none) :
    f.enter p name = (f.put (p.child name) .directory, some (p.child name)) := by
  unfold enter
  rw [if_neg h, if_pos hname, hmissing]

theorem entry?_write_ne {content : String} {g : Folder} (hg : f.write p name content = some g)
    (h : q ≠ p.child name) : g.entry? q = f.entry? q := by
  unfold write at hg
  split at hg
  · split at hg
    · cases hg
    · obtain rfl := Option.some.inj hg
      exact entry?_put_ne h
  · cases hg

/-- A file is written where no directory is. -/
theorem entry?_write_self (content : String) (hname : isName name = true)
    (hentry : f.entry? (p.child name) ≠ some .directory) :
    ∃ g, f.write p name content = some g ∧ g.entry? (p.child name) = some (.file content) := by
  unfold write
  rw [if_pos hname]
  split
  · rename_i hdirectory
    exact absurd hdirectory hentry
  · exact ⟨_, rfl, entry?_put_self (names_child p name)⟩

/-- From above the root, two dots lead further up. -/
theorem descend_dots (f : Folder) (k n : Nat) :
    f.descend ⟨k, []⟩ (List.replicate n "..") = (f, some ⟨k + n, []⟩) := by
  induction n generalizing k with
  | zero => rfl
  | succ n ih =>
    rw [List.replicate_succ, descend]
    show f.descend ⟨k + 1, []⟩ (List.replicate n "..") = (f, some ⟨k + (n + 1), []⟩)
    rw [ih, Nat.add_assoc, Nat.add_comm 1 n]

end Folder

/-! ## Names -/

theorem isName_ofList {cs : List Char} (hlength : cs.length ≤ 63) (hzero : '\x00' ∉ cs) :
    isName (String.ofList cs) = true := by
  have hsize : ∀ cs : List Char, (String.ofList cs).utf8ByteSize ≤ 4 * cs.length := by
    intro cs
    induction cs with
    | nil => exact Nat.le_refl 0
    | cons c cs ih =>
      have hc := c.utf8Size_le_four
      rw [String.ofList_cons, String.utf8ByteSize_append, String.utf8ByteSize_singleton,
        List.length_cons]
      omega
  have hcs := hsize cs
  unfold isName
  rw [Bool.and_eq_true]
  constructor
  · exact decide_eq_true (show (String.ofList cs).utf8ByteSize ≤ 255 by omega)
  · rw [String.toList_ofList]
    simpa using hzero

theorem no_zero_of_isName {name : String} (h : isName name = true) :
    ¬ name.toList.contains '\x00' = true := by
  unfold isName at h
  rw [Bool.and_eq_true, Bool.not_eq_true'] at h
  rw [h.2]
  exact Bool.false_ne_true

theorem isName_key (d : Date) : isName d.key = true := by
  have hlength := d.length_keyChars_le
  exact isName_ofList (by omega) (Date.not_mem_keyChars (by decide) (by decide) (by decide) d)

/-- A name with a dot is no key. -/
theorem ne_key_of_dot {cs : List Char} (h : '.' ∈ cs) (d : Date) : String.ofList cs ≠ d.key := by
  intro heq
  have hchars : cs = d.keyChars := String.ofList_injective heq
  rw [hchars] at h
  exact Date.not_mem_keyChars (by decide) (by decide) (by decide) d h

theorem isName_label (id : UInt64) : isName (String.ofList (label id)) = true := by
  have hid : id.toNat < tenTo (19 + 1) :=
    Nat.lt_trans id.toNat_lt (show 2 ^ 64 < tenTo 20 by decide)
  have hdigits := length_natDigits_le hid
  apply isName_ofList
  · unfold label
    rw [List.length_append, List.length_singleton]
    omega
  · exact not_mem_label (by decide) (by decide) id

theorem label_ne_dots (id : UInt64) : String.ofList (label id) ≠ ".." := by
  intro heq
  have hchars : label id = ['.', '.'] := String.ofList_injective heq
  have hcolon := colon_mem_label id
  rw [hchars] at hcolon
  exact absurd hcolon (by decide)

/-! ## What is left as it is -/

/-- The directory of a day. -/
def dayPlace (d : Date) : Place := Place.root.child d.key

section place

variable {d : Date} {q : Place} {name : String}

theorem key_ne_dots (d : Date) : d.key ≠ ".." := by
  have hdots : String.ofList ['.', '.'] ≠ d.key := ne_key_of_dot (by decide) d
  exact hdots.symm

/-- A file of a day is written, or the directory of the day is made at most. -/
theorem entry?_place_day (f : Folder) (content : String) (hday : q ≠ dayPlace d)
    (hfile : q ≠ (dayPlace d).child name) :
    Folder.entry? (place f [d.key] name content).1 q = f.entry? q ∧
      ∀ g, (place f [d.key] name content).2 = some g → g.entry? q = f.entry? q := by
  have hframe := Folder.entry?_enter_ne (f := f) hday
  have hinto := fun r => Folder.enter_of_ne_dots (f := f) (p := .root) (key_ne_dots d) (r := r)
  unfold place Folder.descend
  split
  · exact ⟨rfl, fun g hg => by cases hg⟩
  · generalize f.enter .root d.key = entered at hframe hinto
    obtain ⟨f', r⟩ := entered
    cases r with
    | none => exact ⟨hframe, fun g hg => by cases hg⟩
    | some r =>
      obtain rfl : r = dayPlace d := hinto r rfl
      refine ⟨hframe, fun g hg => ?_⟩
      rw [Folder.entry?_write_ne hg hfile]
      exact hframe

/-- The item of a hash with no slash touches its file and the directory of its day alone. -/
theorem entry?_store_of_flat {w : WorkItem} (h : Flat w) (f : Folder) (body : List UInt8)
    (hday : q ≠ dayPlace d) (hfile : q ≠ (dayPlace d).child (location d w).2) :
    Folder.entry? (store f d w body).1 q = f.entry? q := by
  unfold store
  split
  · rfl
  · rename_i v _
    rw [location_of_flat h] at hfile ⊢
    dsimp only
    obtain ⟨hleft, hwritten⟩ := entry?_place_day f (envelope w v).write hday hfile
    generalize place f [d.key] (String.ofList (fileChars w)) (envelope w v).write = placed
      at hleft hwritten
    obtain ⟨f', r⟩ := placed
    cases r with
    | none => exact hleft
    | some g => exact hwritten g rfl

end place

/-! ## A file far above -/

/-- The folder of an item that has a directory of its own. -/
def opened (d : Date) (id : UInt64) : Folder :=
  (Folder.empty.put (dayPlace d) .directory).put
    ((dayPlace d).child (String.ofList (label id))) .directory

theorem entry?_opened_missing {d : Date} {id : UInt64} {p : Place} (hnames : p.names ≠ [])
    (hday : p ≠ dayPlace d) (hitem : p ≠ (dayPlace d).child (String.ofList (label id))) :
    Folder.entry? (opened d id) p = none := by
  unfold opened
  rw [Folder.entry?_put_ne hitem, Folder.entry?_put_ne hday]
  exact if_neg hnames

/-- Down to the directory of the item and up again, to above the root. -/
theorem descend_climb (d : Date) (id : UInt64) (k : Nat) :
    Folder.empty.descend .root
        (d.key :: String.ofList (label id) :: List.replicate (k + 2) "..")
      = (opened d id, some ⟨k, []⟩) := by
  have hday : Folder.empty.entry? (Place.root.child d.key) = none := rfl
  have hitem : Folder.entry? (Folder.empty.put (dayPlace d) .directory)
      ((dayPlace d).child (String.ofList (label id))) = none := by
    rw [Folder.entry?_put_ne (by simp [dayPlace, Place.child])]
    rfl
  rw [Folder.descend, Folder.enter_missing (key_ne_dots d) (isName_key d) hday]
  show (Folder.empty.put (dayPlace d) .directory).descend (dayPlace d)
    (String.ofList (label id) :: List.replicate (k + 2) "..") = _
  rw [Folder.descend, Folder.enter_missing (label_ne_dots id) (isName_label id) hitem]
  show (opened d id).descend ⟨0, []⟩ (List.replicate k "..") = _
  rw [Folder.descend_dots, Nat.zero_add]

/-- A hash can lead to any level above the root, and the file is written there. -/
theorem entry?_store_climb (d : Date) (id : UInt64) (k : Nat) {name : List Char}
    (hslash : '/' ∉ name) (hname : isName (String.ofList (name ++ ".json".toList)) = true)
    {body : List UInt8} {v : Value} (hbody : Value.read? (glyphs body) = some v) :
    Folder.entry? (store .empty d ⟨id, climb (k + 2) name⟩ body).1
        ⟨k, [String.ofList (name ++ ".json".toList)]⟩
      = some (.file (envelope ⟨id, climb (k + 2) name⟩ v).write) := by
  have hdot : '.' ∈ name ++ ".json".toList := List.mem_append_right _ (by decide)
  have hfree : Folder.entry? (opened d id)
      (Place.child ⟨k, []⟩ (String.ofList (name ++ ".json".toList))) = none := by
    apply entry?_opened_missing (Folder.names_child _ _)
    · intro heq
      have hnames := congrArg Place.names heq
      exact ne_key_of_dot hdot d (List.cons.inj hnames).1
    · intro heq
      have hnames := congrArg Place.names heq
      exact absurd (List.cons.inj hnames).2 (List.cons_ne_nil _ _).symm
  have hzero : (d.key :: String.ofList (label id) :: List.replicate (k + 2) "..").any
      (fun n => n.toList.contains '\x00') = false := by
    rw [List.any_eq_false]
    intro n hn
    rw [List.mem_cons, List.mem_cons] at hn
    obtain rfl | rfl | hn := hn
    · exact no_zero_of_isName (isName_key d)
    · exact no_zero_of_isName (isName_label id)
    · rw [List.eq_of_mem_replicate hn]
      decide
  have hnew : Folder.entry? (opened d id)
      (Place.child ⟨k, []⟩ (String.ofList (name ++ ".json".toList))) ≠ some .directory := by
    rw [hfree]
    exact (Option.some_ne_none _).symm
  obtain ⟨g, hwrite, hg⟩ := Folder.entry?_write_self
    (envelope ⟨id, climb (k + 2) name⟩ v).write hname hnew
  unfold store
  rw [hbody]
  dsimp only
  rw [location_climb d id (k + 2) hslash]
  unfold place
  rw [hzero, descend_climb]
  dsimp only
  rw [hwrite]
  exact hg

/-! ## Where backups are put -/

/-- **A backup is confined by its hash.** Take any date and any item. The file of the item lies in
the directory of the day, under a single name, exactly if its hash has no slash. Such an item leaves
everything as it is but that file and the directory of the day, in whatever folder and with whatever
body, and no other item of the date has the same location. An item with a slash in its hash shares
its location with another item. And whatever name of a file and whatever level above the root there
is, some hash has the body written there. On a file system the levels end at its top, and with the
longest path that it takes. -/
theorem places_of_backup (d : Date) (w : WorkItem) :
    ((location d w).1 = [d.key] ↔ Flat w) ∧
    (Flat w →
      (∀ f body q, q ≠ dayPlace d → q ≠ (dayPlace d).child (location d w).2 →
        Folder.entry? (store f d w body).1 q = f.entry? q) ∧
      ∀ w', location d w' = location d w → w' = w) ∧
    (¬ Flat w → ∃ w', w' ≠ w ∧ location d w' = location d w) ∧
    ∀ k name body v, '/' ∉ name → isName (String.ofList (name ++ ".json".toList)) = true →
      Value.read? (glyphs body) = some v →
      Folder.entry? (store .empty d ⟨w.id, climb (k + 2) name⟩ body).1
          ⟨k, [String.ofList (name ++ ".json".toList)]⟩
        = some (.file (envelope ⟨w.id, climb (k + 2) name⟩ v).write) := by
  refine ⟨location_directories_iff, ?_, exists_ne_location_eq d, ?_⟩
  · intro hflat
    constructor
    · intro f body q hday hfile
      exact entry?_store_of_flat hflat f body hday hfile
    · intro w' hsame
      -- an item with a slash lies below another directory
      have hflat' : Flat w' := by
        rw [← location_directories_iff (d := d), hsame, location_directories_iff]
        exact hflat
      exact (location_inj hflat' hflat hsame).2
  · intro k name body v hslash hname hbody
    exact entry?_store_climb d w.id k hslash hname hbody

/-! ## Two levels up -/

namespace Ladder

def newYear : Date := ⟨2024, 1, 1, Eq.refl true⟩

/-- An item as it may be given on the command line. -/
def item : WorkItem := ⟨1, "/../../x"⟩

/-- The body of an answer that is an empty object. -/
theorem glyphs_braces : glyphs [123, 125] = [some '\x7b', some '\x7d'] := by
  rw [glyphs]
  show some '\x7b' :: glyphs [125] = _
  rw [glyphs]
  show some '\x7b' :: some '\x7d' :: glyphs [] = _
  rw [glyphs]

theorem parse_item : WorkItem.parse "1:/../../x" = .ok item := by decide +kernel

/-- The file lies beside the directory of the day. -/
theorem beside_day :
    WorkItem.parse "1:/../../x" = .ok item ∧ ¬ Flat item ∧
      (location newYear item).1 = ["20240101", "1:", "..", ".."] ∧
      Folder.entry? (store .empty newYear item [123, 125]).1 ⟨0, ["x.json"]⟩
        = some (.file (envelope item (.object [])).write) ∧
      ∃ w', w' ≠ item ∧ location newYear w' = location newYear item := by
  obtain ⟨-, -, hshared, hclimb⟩ := places_of_backup newYear item
  have hslash : ¬ Flat item := by decide +kernel
  have hbody : Value.read? (glyphs [123, 125]) = some (.object []) := by
    rw [glyphs_braces]
    rfl
  have hfile := hclimb 0 ['x'] [123, 125] (.object []) (by decide) (by decide +kernel) hbody
  exact ⟨parse_item, hslash, by decide +kernel, hfile, hshared hslash⟩

end Ladder

end Harvest.Backup
