import Harvest.Calendar.Instant

/-! # The order of instants, and whole seconds later

Instants are ordered by whole seconds, and within a second by nanoseconds. A number of seconds later
the nanoseconds are the same, but for those of a leap second, which is left for a full second.

## Main definitions

* `secondsLater?`: the instant a number of seconds later.

## Main statements

* `le_trans`, `lt_of_le_of_lt`, `lt_of_lt_of_le`: chains of instants.
* `not_le`, `not_lt`, `le_antisymm`: two instants are in order, and equal if in both.
* `second_le_of_le`: whole seconds are in the order of the instants.
* `bind_add?_eq_secondsLater?`: a span of seconds leads as many seconds on.
-/

namespace Harvest.Calendar.Instant

variable {a b c : Instant}

theorem le_def : a ≤ b ↔ a.second < b.second ∨ a.second = b.second ∧ a.nano ≤ b.nano := Iff.rfl

theorem lt_def : a < b ↔ a.second < b.second ∨ a.second = b.second ∧ a.nano < b.nano := Iff.rfl

theorem le_refl (a : Instant) : a ≤ a := .inr ⟨rfl, Nat.le_refl _⟩

theorem le_trans (hab : a ≤ b) (hbc : b ≤ c) : a ≤ c := by
  rw [le_def] at *
  omega

theorem le_of_lt (h : a < b) : a ≤ b := by
  rw [lt_def] at h
  rw [le_def]
  omega

theorem lt_of_le_of_lt (hab : a ≤ b) (hbc : b < c) : a < c := by
  rw [le_def] at hab
  rw [lt_def] at *
  omega

theorem lt_of_lt_of_le (hab : a < b) (hbc : b ≤ c) : a < c := by
  rw [le_def] at hbc
  rw [lt_def] at *
  omega

theorem not_le : ¬ a ≤ b ↔ b < a := by
  rw [le_def, lt_def]
  omega

theorem not_lt : ¬ a < b ↔ b ≤ a := by
  rw [le_def, lt_def]
  omega

theorem not_lt_of_le (h : a ≤ b) : ¬ b < a := not_lt.mpr h

theorem le_antisymm (hab : a ≤ b) (hba : b ≤ a) : a = b := by
  rw [le_def] at hab hba
  obtain ⟨second, nano, _⟩ := a
  obtain ⟨second', nano', _⟩ := b
  obtain ⟨rfl, rfl⟩ : second = second' ∧ nano = nano' := by
    dsimp only at hab hba
    omega
  rfl

theorem second_le_of_le (h : a ≤ b) : a.second ≤ b.second := by
  rw [le_def] at h
  omega

/-! ## Whole seconds later -/

/-- The second that lies `n` seconds after an instant. Backward, a leap second is a part of the
second after it. -/
def secondAfter (t : Instant) (n : Int) : Int :=
  if 1000000000 ≤ t.nano ∧ n < 0 then t.second + 1 + n else t.second + n

/-- The nanoseconds that are left `n` seconds after an instant. -/
def nanoAfter (t : Instant) (n : Int) : Nat := if n = 0 then t.nano else t.nano % 1000000000

/-- The instant `n` seconds later, if the calendar has one. -/
def secondsLater? (t : Instant) (n : Int) : Option Instant := of? (t.secondAfter n) (t.nanoAfter n)

theorem nano_lt (t : Instant) : t.nano < 2000000000 := by
  have hvalid := t.valid
  simp only [validInstant, Bool.and_eq_true, decide_eq_true_eq] at hvalid
  exact hvalid.2

theorem second_bounds (t : Instant) : minSecond ≤ t.second ∧ t.second ≤ maxSecond := by
  have hvalid := t.valid
  simp only [validInstant, Bool.and_eq_true, decide_eq_true_eq] at hvalid
  exact hvalid.1

theorem normalize_of_lt {second nano : Int} (h : 0 ≤ nano) (hlt : nano < 1000000000) :
    normalize second nano = (second, nano.toNat) := by
  rw [normalize, if_neg (by omega), if_neg (by omega)]

theorem shift_ofSeconds (t : Instant) (n : Int) :
    shift t.second t.nano (Span.ofSeconds n) = (t.secondAfter n, t.nanoAfter n) := by
  have hwhole : (Span.ofSeconds n).tdiv 1000000000 = n := Int.mul_tdiv_cancel n (by decide)
  have hpart : (Span.ofSeconds n).tmod 1000000000 = 0 := Int.mul_tmod_left n 1000000000
  have hnano := t.nano_lt
  simp only [shift, hwhole, hpart, Int.add_zero]
  by_cases hleap : 1000000000 ≤ t.nano
  · have hleft : ((t.nano : Int) - 1000000000).toNat = t.nano % 1000000000 := by omega
    rw [if_pos hleap, secondAfter, nanoAfter]
    rcases Int.lt_trichotomy n 0 with hn | rfl | hn
    · rw [if_neg (by omega), if_pos hn, normalize_of_lt (by omega) (by omega), hleft,
        if_pos ⟨hleap, hn⟩, if_neg (by omega)]
    · rw [if_neg (by omega), if_neg (by decide), if_neg (by omega), if_pos rfl, Int.add_zero]
      rfl
    · rw [if_pos (.inl hn), normalize_of_lt (by omega) (by omega), hleft,
        if_neg (by omega), if_neg (by omega)]
  · rw [if_neg hleap, normalize_of_lt (by omega) (by omega), secondAfter, nanoAfter,
      if_neg (by omega), Nat.mod_eq_of_lt (by omega), ite_self]
    rfl

theorem secondsLater?_isSome {t : Instant} {n : Int} :
    (t.secondsLater? n).isSome ↔ minSecond ≤ t.secondAfter n ∧ t.secondAfter n ≤ maxSecond := by
  have hnano : t.nanoAfter n < 2000000000 := by
    have := t.nano_lt
    unfold nanoAfter
    split <;> omega
  unfold secondsLater? of?
  split <;> rename_i h <;>
    simp only [validInstant, Bool.and_eq_true, decide_eq_true_eq, hnano, and_true] at h <;>
    simp [h]

/-- A span of seconds leads as many seconds on. One that is too long to be written leads out of the
calendar anyway. -/
theorem bind_add?_eq_secondsLater? (t : Instant) (n : Int) :
    (Span.ofSeconds? n).bind t.add? = t.secondsLater? n := by
  unfold Span.ofSeconds?
  split
  · rename_i h
    rw [Option.bind_some, add?, shift_ofSeconds]
    rfl
  · rename_i hlong
    obtain ⟨hmin, hmax⟩ := t.second_bounds
    have hlongest : Span.longest.natAbs = 9223372036854775807000000 := by decide
    have hnone : ¬ (t.secondsLater? n).isSome := by
      rw [secondsLater?_isSome, secondAfter]
      rw [hlongest, Span.ofSeconds] at hlong
      unfold minSecond maxSecond at *
      split <;> omega
    rw [Option.bind_none, Option.not_isSome_iff_eq_none.mp hnone]

end Harvest.Calendar.Instant
