import LeadAutomation.Uuid
import Mathlib.Data.Nat.Digits.Defs

/-!
# Identifiers as text

An identifier is read back from the text that is written for it: `Uuid.ofText?_text`.
-/

namespace LeadAutomation.Uuid

theorem hexValue?_hexDigit :
    ∀ d < 16, Json.hexValue? (Json.hexDigit d) = some d := by decide +kernel

theorem length_hexDigits (count n : Nat) : (hexDigits count n).length = count := by
  induction count generalizing n with
  | zero => rfl
  | succ count ih => rw [hexDigits, List.length_append, ih, List.length_singleton]

/-- The last digits of a number stand for what is left of it. -/
theorem hexNumber?_hexDigits (count n : Nat) :
    hexNumber? (hexDigits count n) = some (n % 16 ^ count) := by
  induction count generalizing n with
  | zero => rw [Nat.pow_zero, Nat.mod_one]; rfl
  | succ count ih =>
    have hvalue := hexValue?_hexDigit (n % 16) (Nat.mod_lt n (by decide))
    have hrest := ih (n / 16)
    rw [hexNumber?] at hrest ⊢
    rw [hexDigits, List.foldlM_append, hrest]
    simp only [bind, Option.bind_some, List.foldlM_cons, List.foldlM_nil, hvalue,
      Option.map_some, pure]
    rw [Nat.pow_succ', Nat.mod_mul, Nat.add_comm]

variable {digits : List Char}

theorem length_hyphenate (h : digits.length = 32) : (hyphenate digits).length = 36 := by
  simp [hyphenate, h]

theorem ofHyphenated?_hyphenate (h : digits.length = 32) :
    ofHyphenated? (hyphenate digits) = ofDigits? digits := by
  obtain ⟨a, b, c, d, e, rfl, ha, hb, hc, hd⟩ :
    ∃ a b c d e : List Char, digits = a ++ (b ++ (c ++ (d ++ e))) ∧
      a.length = 8 ∧ b.length = 4 ∧ c.length = 4 ∧ d.length = 4 := by
    refine ⟨digits.take 8, (digits.drop 8).take 4, (digits.drop 12).take 4, (digits.drop 16).take 4,
      digits.drop 20, ?_, ?_⟩
    · rw [← List.drop_drop (i := 4) (j := 16), List.take_append_drop,
        ← List.drop_drop (i := 4) (j := 12), List.take_append_drop,
        ← List.drop_drop (i := 4) (j := 8), List.take_append_drop, List.take_append_drop]
    · simp [h]
  have hjoin : hyphenate (a ++ (b ++ (c ++ (d ++ e)))) =
      a ++ '-' :: (b ++ '-' :: (c ++ '-' :: (d ++ '-' :: e))) := by
    simp (disch := omega) [hyphenate, List.drop_append, List.drop_eq_nil_of_le, ha, hb, hc]
  have hparts : ∀ cs, cs = a ++ '-' :: (b ++ '-' :: (c ++ '-' :: (d ++ '-' :: e))) →
      cs.take 8 ++ (cs.drop 9).take 4 ++ (cs.drop 14).take 4 ++ (cs.drop 19).take 4 ++ cs.drop 24 =
        a ++ (b ++ (c ++ (d ++ e))) := by
    rintro cs rfl
    simp (disch := omega) [List.drop_append, List.drop_eq_nil_of_le, ha, hb, hc, hd]
  rw [ofHyphenated?, hparts _ hjoin, if_pos rfl]

@[simp]
theorem ofText?_text (id : Uuid) : ofText? id.text = some id := by
  have hlength : id.digits.length = 32 := length_hexDigits 32 _
  have hlt : id.bits.toNat < 16 ^ 32 := Nat.lt_of_lt_of_eq id.bits.isLt (by decide)
  have hnumber : hexNumber? id.digits = some id.bits.toNat := by
    rw [digits, hexNumber?_hexDigits, Nat.mod_eq_of_lt hlt]
  rw [ofText?, text, String.toList_ofList, length_hyphenate hlength, if_neg (by decide), if_pos rfl,
    ofHyphenated?_hyphenate hlength, ofDigits?, if_pos hlength, hnumber, Option.map_some,
    BitVec.ofNat_toNat, BitVec.setWidth_eq]

end LeadAutomation.Uuid
