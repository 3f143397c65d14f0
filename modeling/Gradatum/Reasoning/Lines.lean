import Mathlib.Data.List.Basic

/-!
# Texts made of fields

A field ends at a separator that is in no field, so a text can be read back: two texts with the same
characters have the same fields.
-/

namespace Reasoning

open List

section Lines

variable {α β : Type}

theorem append_separator_inj (hw : sep ∉ w) (hw' : sep ∉ w') (h : w ++ sep :: rest = w' ++ sep :: rest') :
    w = w' ∧ rest = rest' := by
  induction w generalizing w' with
  | nil =>
    cases w' with
    | nil => exact ⟨rfl, (List.cons.inj h).2⟩
    | cons b w' => exact absurd (mem_cons.2 (.inl (List.cons.inj h).1)) hw'
  | cons a w ih =>
    cases w' with
    | nil => exact absurd (mem_cons.2 (.inl (List.cons.inj h).1.symm)) hw
    | cons b w' =>
      obtain ⟨hhead, htail⟩ := List.cons.inj h
      obtain ⟨hrest, htails⟩ :=
        ih (not_mem_of_not_mem_cons hw) (not_mem_of_not_mem_cons hw') htail
      exact ⟨by rw [hhead, hrest], htails⟩

theorem flatMap_line_inj (hline : ∀ a, sep ∉ line a) {l l' : List α}
    (h : l.flatMap (fun a => line a ++ [sep]) = l'.flatMap fun a => line a ++ [sep]) :
    l.map line = l'.map line := by
  induction l generalizing l' with
  | nil =>
    cases l' with
    | nil => rfl
    | cons b l' => simp at h
  | cons a l ih =>
    cases l' with
    | nil => simp at h
    | cons b l' =>
      simp only [flatMap_cons, append_assoc, singleton_append] at h
      obtain ⟨hfirst, hrest⟩ := append_separator_inj (hline a) (hline b) h
      rw [map_cons, map_cons, hfirst, ih hrest]

theorem toDigits_injective (h : Nat.toDigits 10 m = Nat.toDigits 10 n) : m = n := by
  rw [← Nat.ofDigitChars_toDigits (b := 10) (n := m) (by omega) (by omega), h,
    Nat.ofDigitChars_toDigits (by omega) (by omega)]

theorem not_mem_toDigits (hc : c.isDigit = false) (n : Nat) : c ∉ Nat.toDigits 10 n := by
  intro hmem
  rw [Nat.isDigit_of_mem_toDigits (by omega) (by omega) hmem] at hc
  cases hc

end Lines

end Reasoning
