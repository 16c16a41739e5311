import Exemplar.Text.LetterCase
import Mathlib.Data.List.Basic

/-!
# Lower case is left alone

A character is put into lower case by one step: what comes out is in no run of its own, so a
second step does not move it. For the runs beyond ASCII this is a matter of intervals. What a
run makes of its code points lies outside of every run, or between the code points of one that
takes every second.
-/

namespace Exemplar.Text

namespace LetterCase

/-- What a run makes of a code point. -/
def Run.image (r : Run) (n : Nat) : Nat := r.2.2.2 + (n - r.1)

/-- Whether nothing that one run makes is moved by another, as far as their ends and steps
tell. -/
def Run.clears (r s : Run) : Bool :=
  Nat.blt (r.image r.2.1) s.1 || Nat.blt s.2.1 r.2.2.2
    || (Nat.beq s.2.2.1 2 && (Nat.beq r.2.2.1 2 || Nat.beq r.1 r.2.1)
      && Nat.beq ((r.2.2.2 + s.1) % 2) 1)

/-- Whether everything that a run makes is a character, and beyond ASCII unless it is a single
small letter. -/
def Run.lands (r : Run) : Bool :=
  (Nat.blt (r.image r.2.1) 0xd800
    || (Nat.blt 0xdfff r.2.2.2 && Nat.blt (r.image r.2.1) 0x110000))
    && (Nat.blt 127 r.2.2.2 || (Nat.beq r.1 r.2.1 && Nat.blt 96 r.2.2.2 && Nat.blt r.2.2.2 123))

/-- No run is in the way of another. -/
theorem clears_lowerRuns : lowerRuns.all (fun r => lowerRuns.all r.clears) = true := by
  decide +kernel

/-- Every run makes characters. -/
theorem lands_lowerRuns : lowerRuns.all Run.lands = true := by
  decide +kernel

variable {r s : Run} {n : Nat} {c : Char}

/-- A run moves the code points in its range that it comes to by its steps. -/
theorem Run.moves_iff : r.moves n = true ↔ r.1 ≤ n ∧ n ≤ r.2.1 ∧ (n - r.1) % r.2.2.1 = 0 := by
  simp only [Run.moves, Bool.and_eq_true, decide_eq_true_eq, beq_iff_eq, and_assoc]

/-- What a run makes is moved by no run that it is clear of. -/
theorem Run.moves_image (h : r.clears s = true) (hn : r.moves n = true) :
    s.moves (r.image n) = false := by
  obtain ⟨hfirst, hlast, hstep⟩ := moves_iff.1 hn
  simp only [clears, image, Bool.or_eq_true, Bool.and_eq_true, Nat.blt_eq, Nat.beq_eq] at h
  rw [Bool.eq_false_iff, Ne, moves_iff, image]
  rintro ⟨hs, hs', hstep'⟩
  -- The image is below the other run, above it, or between its code points.
  rcases h with (h | h) | ⟨⟨htwo, htwo' | hone⟩, hodd⟩
  · omega
  · omega
  · rw [htwo] at hstep'
    rw [htwo'] at hstep
    omega
  · rw [htwo] at hstep'
    omega

/-- What a run of the lower case makes is a character that is moved no further. -/
theorem lowerChar_image (hr : r ∈ lowerRuns) (hn : r.moves n = true) :
    lowerChar (Char.ofNat (r.image n)) = Char.ofNat (r.image n) := by
  obtain ⟨hfirst, hlast, -⟩ := Run.moves_iff.1 hn
  have hlands := List.all_eq_true.1 lands_lowerRuns r hr
  simp only [Run.lands, Run.image, Bool.or_eq_true, Bool.and_eq_true, Nat.blt_eq, Nat.beq_eq]
    at hlands
  -- The image is a character, as the run stays within the code points that are.
  have hvalid : (r.image n).isValidChar := by
    rw [Run.image]
    exact hlands.1.imp (fun h => by omega) fun h => ⟨by omega, by omega⟩
  have hval : (Char.ofNat (r.image n)).toNat = r.image n := by
    rw [Char.ofNat, dif_pos hvalid]
    rfl
  rcases Nat.lt_or_ge (r.image n) 128 with hascii | hbeyond
  · -- a single letter of ASCII, of which there are few
    have hsmall : ∀ m ∈ List.range 123, 97 ≤ m → lowerChar (Char.ofNat m) = Char.ofNat m := by
      decide +kernel
    have hstart : r.image n = r.2.2.2 := by rw [Run.image] at *; omega
    rw [Run.image] at hascii
    exact hsmall _ (List.mem_range.2 (by omega)) (by omega)
  · -- No run moves it, since none comes to the image of another.
    have hfind : lowerRuns.find? (fun s => s.moves (r.image n)) = none :=
      List.find?_eq_none.2 fun s hs => Bool.eq_false_iff.1
        (Run.moves_image (List.all_eq_true.1 (List.all_eq_true.1 clears_lowerRuns r hr) s hs) hn)
    have hnot : ¬(Char.ofNat (r.image n)).val < 128 := by
      rw [UInt32.lt_iff_toNat_lt]
      exact Nat.not_lt.2 (Nat.le_trans hbeyond (Nat.le_of_eq hval.symm))
    rw [lowerChar, if_neg hnot, shift, hval, hfind]

end LetterCase

open LetterCase

/-- **What is in lower case stays as it is.** -/
theorem lowerChar_lowerChar (c : Char) : lowerChar (lowerChar c) = lowerChar c := by
  by_cases hc : c.val < 128
  · have hsmall : ∀ n ∈ List.range 128, lowerChar (lowerChar (Char.ofNat n))
        = lowerChar (Char.ofNat n) := by
      decide +kernel
    rw [← Char.ofNat_toNat c]
    exact hsmall c.toNat (List.mem_range.2 (UInt32.lt_iff_toNat_lt.1 hc))
  · have hlower : lowerChar c = shift lowerRuns c := if_neg hc
    cases hfind : lowerRuns.find? (fun r => r.moves c.toNat) with
    | some r =>
      rw [hlower, shift, hfind]
      exact lowerChar_image (List.mem_of_find?_eq_some hfind)
        (List.find?_some (p := fun r : Run => r.moves c.toNat) hfind)
    | none =>
      have hself : shift lowerRuns c = c := by rw [shift, hfind]
      rw [hlower, hself, hlower, hself]

end Exemplar.Text
