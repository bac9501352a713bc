import Mathlib.Data.List.Basic
import ScriptFold.Script.Codec

/-!
# Weights as text

A text is read as a weight exactly if it spells a number below `2 ^ 32`: white space around an
optional plus sign and ASCII digits, leading zeros allowed (`Weight.read?_eq_some_iff`). The decimal
of a weight spells it with no more digits than needed, and it is the only text that does.
-/

namespace ScriptFold

namespace Text

theorem isBlankChar_of_isDigit {c : Char} (h : c.isDigit = true) : isBlankChar c = false := by
  rw [Char.isDigit_iff_toNat] at h
  have hzero : '0'.toNat = 48 := rfl
  have hnine : '9'.toNat = 57 := rfl
  rw [← Bool.not_eq_true, isBlankChar, inRanges_eq_true_iff]
  simp [blankRanges]
  omega

theorem exists_eq_append_trimChars (s : List Char) :
    ∃ before after, s = before ++ trimChars s ++ after ∧
      ∀ c ∈ before ++ after, isBlankChar c = true := by
  have htail : s.dropWhile isBlankChar =
      trimChars s ++ ((s.dropWhile isBlankChar).reverse.takeWhile isBlankChar).reverse := by
    rw [trimChars, ← List.reverse_append, List.takeWhile_append_dropWhile, List.reverse_reverse]
  refine ⟨s.takeWhile isBlankChar,
    ((s.dropWhile isBlankChar).reverse.takeWhile isBlankChar).reverse, ?_, ?_⟩
  · rw [List.append_assoc, ← htail, List.takeWhile_append_dropWhile]
  · rw [List.forall_mem_append]
    refine ⟨List.all_eq_true.1 List.all_takeWhile, fun c hc => ?_⟩
    exact List.all_eq_true.1 List.all_takeWhile c (List.mem_reverse.1 hc)

theorem dropWhile_append_of_not_blank {before s : List Char}
    (hbefore : ∀ c ∈ before, isBlankChar c = true) (hs : ∀ c ∈ s.head?, isBlankChar c = false) :
    (before ++ s).dropWhile isBlankChar = s := by
  rw [List.dropWhile_append_of_pos hbefore]
  cases s with
  | nil => rfl
  | cons c rest => rw [List.dropWhile_cons_of_neg (by simp [hs c rfl])]

/-- The white space around other characters is taken away. -/
theorem trimChars_append {before s after : List Char}
    (hblank : ∀ c ∈ before ++ after, isBlankChar c = true)
    (hs : ∀ c ∈ s, isBlankChar c = false) (hne : s ≠ []) :
    trimChars (before ++ s ++ after) = s := by
  rw [List.forall_mem_append] at hblank
  obtain ⟨c, rest, rfl⟩ := List.exists_cons_of_ne_nil hne
  have hfront : (before ++ (c :: rest ++ after)).dropWhile isBlankChar = c :: rest ++ after :=
    dropWhile_append_of_not_blank hblank.1 fun other hother => by
      rw [List.cons_append, List.head?_cons, Option.mem_some_iff] at hother
      exact hother ▸ hs c List.mem_cons_self
  have hback : (after.reverse ++ (c :: rest).reverse).dropWhile isBlankChar = (c :: rest).reverse :=
    dropWhile_append_of_not_blank (fun d hd => hblank.2 d (List.mem_reverse.1 hd))
      fun d hd => hs d (List.mem_reverse.1 (List.mem_of_mem_head? hd))
  rw [trimChars, List.append_assoc, hfront, List.reverse_append, hback, List.reverse_reverse]

end Text

namespace Weight

/-! ### Digits -/

/-- Digits are read as the number they write behind what was read before. -/
theorem digitsValue?_eq_some_iff {digits : List Char} {n m : Nat} :
    digitsValue? n digits = some m ↔
      (∀ c ∈ digits, c.isDigit = true) ∧ Nat.ofDigitChars 10 digits n = m := by
  induction digits generalizing n with
  | nil => simp [digitsValue?]
  | cons c rest ih =>
    have hdigit : ('0' ≤ c ∧ c ≤ '9') ↔ c.isDigit = true := by
      rw [Char.isDigit_iff_toNat]
      exact Iff.rfl
    rw [digitsValue?, List.forall_mem_cons, Nat.ofDigitChars_cons, Nat.mul_comm 10 n]
    by_cases hc : '0' ≤ c ∧ c ≤ '9'
    · rw [if_pos hc, ih, and_iff_right (hdigit.1 hc)]
    · rw [if_neg hc]
      exact iff_of_false (Option.some_ne_none m).symm fun h => hc (hdigit.2 h.1.1)

theorem isDigit_of_mem_toDigits {n : Nat} {c : Char} (h : c ∈ Nat.toDigits 10 n) :
    c.isDigit = true :=
  Nat.isDigit_of_mem_toDigits (by omega) (by omega) h

/-- The value of a digit writes the digit. -/
theorem toDigits_toNat_sub {c : Char} (h : c.isDigit = true) :
    Nat.toDigits 10 (c.toNat - '0'.toNat) = [c] := by
  rw [Char.isDigit_iff_toNat] at h
  have hzero : '0'.toNat = 48 := rfl
  have hnine : '9'.toNat = 57 := rfl
  have hlt : c.toNat - '0'.toNat < 10 := by omega
  rw [Nat.toDigits_of_lt_base hlt]
  refine congrArg (· :: []) (Char.toNat_inj.1 ?_)
  rw [Nat.toNat_digitChar_of_lt_ten hlt]
  omega

/-- Behind a number that is not zero, digits go on with its decimal. -/
theorem toDigits_append {digits : List Char} (h : ∀ c ∈ digits, c.isDigit = true) {n : Nat}
    (hn : 0 < n) :
    Nat.toDigits 10 n ++ digits = Nat.toDigits 10 (Nat.ofDigitChars 10 digits n) := by
  induction digits generalizing n with
  | nil => rw [List.append_nil, Nat.ofDigitChars_nil]
  | cons c rest ih =>
    rw [List.forall_mem_cons] at h
    have hlt : c.toNat - '0'.toNat < 10 := by
      have hc := Char.isDigit_iff_toNat.1 h.1
      have hzero : '0'.toNat = 48 := rfl
      have hnine : '9'.toNat = 57 := rfl
      omega
    rw [List.append_cons, ← toDigits_toNat_sub h.1,
      Nat.toDigits_append_toDigits (by omega) hn hlt, ih h.2 (by omega), Nat.ofDigitChars_cons]

/-- Digits, the first of several not a zero, are the decimal of what they write. -/
theorem toDigits_ofDigitChars {digit : Char} {rest : List Char}
    (h : ∀ c ∈ digit :: rest, c.isDigit = true) (hzero : digit = '0' → rest = []) :
    Nat.toDigits 10 (Nat.ofDigitChars 10 (digit :: rest) 0) = digit :: rest := by
  rw [List.forall_mem_cons] at h
  rw [Nat.ofDigitChars_cons, Nat.mul_zero, Nat.zero_add]
  by_cases hd : digit = '0'
  · rw [hzero hd, Nat.ofDigitChars_nil, toDigits_toNat_sub h.1]
  · have hpos : 0 < digit.toNat - '0'.toNat := by
      have hne : digit.toNat ≠ '0'.toNat := fun he => hd (Char.toNat_inj.1 he)
      have hle := (Char.isDigit_iff_toNat.1 h.1).1
      omega
    rw [← toDigits_append h.2 hpos, toDigits_toNat_sub h.1, List.singleton_append]

/-- The decimal of a number that is not zero does not begin with a zero. -/
theorem head?_toDigits_ne {n : Nat} (hn : 0 < n) : (Nat.toDigits 10 n).head? ≠ some '0' := by
  induction n using Nat.strongRecOn with
  | ind n ih =>
    by_cases hlt : n < 10
    · rw [Nat.toDigits_of_lt_base hlt, List.head?_cons]
      intro h
      have hdigit := congrArg Char.toNat (Option.some.inj h)
      rw [Nat.toNat_digitChar_of_lt_ten hlt] at hdigit
      have hzero : '0'.toNat = 48 := rfl
      omega
    · rw [Nat.toDigits_of_base_le (by omega) (by omega),
        List.head?_append_of_ne_nil _ Nat.toDigits_ne_nil]
      exact ih (n / 10) (by omega) (by omega)

/-! ### Texts -/

/-- A text spells a number: white space around a plus sign, which may be left out, and at least one
ASCII digit. -/
def Spells (text : String) (n : Nat) : Prop :=
  ∃ before sign digits after, text.toList = before ++ (sign ++ digits) ++ after ∧
    (∀ c ∈ before ++ after, Text.isBlankChar c = true) ∧ (sign = [] ∨ sign = ['+']) ∧
    digits ≠ [] ∧ (∀ c ∈ digits, c.isDigit = true) ∧ Nat.ofDigitChars 10 digits 0 = n

/-- A text is a decimal without anything that could be left out: digits, the first of several not a
zero. -/
def IsDecimal (text : String) : Prop :=
  ∃ digit rest, text.toList = digit :: rest ∧ (∀ c ∈ digit :: rest, c.isDigit = true) ∧
    (digit = '0' → rest = [])

/-- The digits of a text are what is left of it without the white space and the sign. -/
theorem unsigned_trimChars {before sign digits after : List Char}
    (hblank : ∀ c ∈ before ++ after, Text.isBlankChar c = true) (hsign : sign = [] ∨ sign = ['+'])
    (hne : digits ≠ []) (hdigits : ∀ c ∈ digits, c.isDigit = true) :
    unsigned (Text.trimChars (before ++ (sign ++ digits) ++ after)) = digits := by
  have hplain : ∀ c ∈ sign ++ digits, Text.isBlankChar c = false := by
    refine List.forall_mem_append.2 ⟨?_, fun c hc => Text.isBlankChar_of_isDigit (hdigits c hc)⟩
    obtain rfl | rfl := hsign
    · exact List.forall_mem_nil _
    · exact List.forall_mem_singleton.2 (by decide)
  rw [Text.trimChars_append hblank hplain (List.append_ne_nil_of_right_ne_nil sign hne)]
  obtain rfl | rfl := hsign
  · rw [List.nil_append, unsigned.eq_def]
    split
    · have := hdigits '+' List.mem_cons_self
      cases this
    · rfl
  · rfl

theorem exists_eq_append_unsigned (s : List Char) :
    ∃ sign, (sign = [] ∨ sign = ['+']) ∧ s = sign ++ unsigned s := by
  rw [unsigned.eq_def]
  split
  · exact ⟨['+'], .inr rfl, rfl⟩
  · exact ⟨[], .inl rfl, rfl⟩

/-- A text is read as a weight exactly if it spells it. -/
theorem read?_eq_some_iff {text : String} {weight : UInt32} :
    read? text = some weight ↔ Spells text weight.toNat := by
  constructor
  · intro h
    rw [read?] at h
    split at h
    · cases h
    · next digits hne =>
      split at h
      · next n hn =>
        obtain ⟨hdigits, hvalue⟩ := digitsValue?_eq_some_iff.1 hn
        obtain ⟨hlt, hweight⟩ := Option.ite_none_right_eq_some.1 h
        obtain rfl := Option.some.inj hweight
        obtain ⟨before, after, htext, hblank⟩ := Text.exists_eq_append_trimChars text.toList
        obtain ⟨sign, hsign, htrim⟩ := exists_eq_append_unsigned (Text.trimChars text.toList)
        rw [htrim] at htext
        refine ⟨before, sign, _, after, htext, hblank, hsign, hne, hdigits, ?_⟩
        rw [hvalue]
        exact (UInt32.toNat_ofNat_of_lt' hlt).symm
      · cases h
  · rintro ⟨before, sign, digits, after, htext, hblank, hsign, hne, hdigits, hvalue⟩
    rw [read?, htext, unsigned_trimChars hblank hsign hne hdigits]
    split
    · exact absurd rfl hne
    · rw [digitsValue?_eq_some_iff.2 ⟨hdigits, hvalue⟩]
      show (if weight.toNat < UInt32.size then some (UInt32.ofNat weight.toNat) else none) = _
      rw [if_pos weight.toNat_lt_size, UInt32.ofNat_toNat]

/-- A text is read as a weight exactly if it spells a number that fits. -/
theorem exists_read?_iff {text : String} :
    (∃ weight, read? text = some weight) ↔ ∃ n < UInt32.size, Spells text n := by
  simp only [read?_eq_some_iff]
  constructor
  · rintro ⟨weight, h⟩
    exact ⟨weight.toNat, weight.toNat_lt_size, h⟩
  · rintro ⟨n, hn, h⟩
    refine ⟨UInt32.ofNat n, ?_⟩
    rw [UInt32.toNat_ofNat_of_lt' hn]
    exact h

/-- The decimal of a weight spells it. -/
theorem spells_text (weight : UInt32) : Spells (text weight) weight.toNat := by
  refine ⟨[], [], Nat.toDigits 10 weight.toNat, [], ?_, List.forall_mem_nil _, .inl rfl,
    Nat.toDigits_ne_nil, fun c => isDigit_of_mem_toDigits, Nat.ofDigitChars_ten_toDigits⟩
  rw [text, String.toList_ofList, List.nil_append, List.nil_append, List.append_nil]

/-- The decimal of a weight is read back as the weight. -/
theorem read?_text (weight : UInt32) : read? (text weight) = some weight :=
  read?_eq_some_iff.2 (spells_text weight)

/-- Nothing can be left out of the decimal of a weight. -/
theorem isDecimal_text (weight : UInt32) : IsDecimal (text weight) := by
  obtain ⟨digit, rest, hdigits⟩ :=
    List.exists_cons_of_ne_nil (Nat.toDigits_ne_nil : Nat.toDigits 10 weight.toNat ≠ [])
  have hall : ∀ c ∈ digit :: rest, c.isDigit = true :=
    fun c hc => isDigit_of_mem_toDigits (hdigits ▸ hc)
  refine ⟨digit, rest, ?_, hall, ?_⟩
  · rw [text, String.toList_ofList, hdigits]
  · rintro rfl
    obtain hzero | hpos := Nat.eq_zero_or_pos weight.toNat
    · rw [hzero, Nat.toDigits_zero] at hdigits
      exact (List.cons.inj hdigits).2.symm
    · exact absurd (by rw [hdigits, List.head?_cons]) (head?_toDigits_ne hpos)

/-- A decimal is the one of the number it spells. -/
theorem IsDecimal.toList_eq {text : String} (h : IsDecimal text) {n : Nat} (hn : Spells text n) :
    text.toList = Nat.toDigits 10 n := by
  obtain ⟨digit, rest, htext, hall, hzero⟩ := h
  obtain ⟨before, sign, digits, after, hparts, hblank, hsign, hne, hdigits, rfl⟩ := hn
  have hself : unsigned (Text.trimChars ([] ++ ([] ++ digit :: rest) ++ [])) = digit :: rest :=
    unsigned_trimChars (List.forall_mem_nil _) (.inl rfl) (List.cons_ne_nil _ _) hall
  have hsame : digits = digit :: rest := by
    rw [← unsigned_trimChars hblank hsign hne hdigits, ← hparts, htext]
    rwa [List.nil_append, List.nil_append, List.append_nil] at hself
  rw [htext, hsame, toDigits_ofDigitChars hall hzero]

/-- A weight has one decimal. -/
theorem IsDecimal.eq_text {key : String} (h : IsDecimal key) {weight : UInt32}
    (hkey : Spells key weight.toNat) : key = text weight := by
  rw [text, ← h.toList_eq hkey, String.ofList_toList]

end Weight

end ScriptFold
