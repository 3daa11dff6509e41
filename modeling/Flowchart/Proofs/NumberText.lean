import Flowchart.Proofs.FloatPattern
import Flowchart.Token.Scan

/-!
# Numbers read back

The digits shown for a finite number without a sign are read as that number. The search for the
shortest decimal only returns decimals with the pattern it looks for, or the exact decimal if it
finds none; what is left is that a layout without an exponent spells a decimal of the same value,
and that a number stands at the end of a range of equal patterns only at infinity.
-/

namespace Flowchart.Number

/-! ### Rounding -/

theorem roundQuotient_mul (quotient : Nat) {den : Nat} (hden : 0 < den) :
    roundQuotient (quotient * den) den = quotient := by
  rw [roundQuotient, Nat.mul_div_cancel _ hden, Nat.mul_mod_left]
  simp [hden]

theorem div_le_roundQuotient (num den : Nat) : num / den ≤ roundQuotient num den := by
  unfold roundQuotient
  dsimp only
  split
  · omega
  · split <;> omega

theorem log2_mul_two_pow {n : Nat} (hn : n ≠ 0) (k : Nat) : (n * 2 ^ k).log2 = n.log2 + k := by
  induction k with
  | zero => simp
  | succ k ih =>
      have hne : n * 2 ^ k ≠ 0 := Nat.mul_ne_zero hn (Nat.ne_of_gt (Nat.two_pow_pos k))
      rw [Nat.pow_succ, ← Nat.mul_assoc, Nat.mul_comm _ 2, Nat.log2_two_mul hne, ih, Nat.add_assoc]

/-- The units of a pattern: its significand, shifted by its binade. -/
theorem units_eq (pattern : Nat) :
    units pattern = if pattern < 2 ^ 52 then pattern
      else (2 ^ 52 + pattern % 2 ^ 52) * 2 ^ (pattern / 2 ^ 52 - 1) := rfl

theorem unitsPerOne_eq : unitsPerOne = 2 ^ 1074 := by
  unfold unitsPerOne
  generalize 1074 = n
  rfl

/-- The closest pattern counts the binades below and the units within its own. -/
theorem nearest_eq (num den : Nat) :
    nearest num den = min infinityPattern
      (((num * unitsPerOne / den).log2 - 52) * 2 ^ 52 + roundQuotient (num * unitsPerOne)
        (den * 2 ^ ((num * unitsPerOne / den).log2 - 52))) := rfl

theorem units_pos {pattern : Nat} (hpos : 0 < pattern) : 0 < units pattern := by
  rw [units_eq]
  split
  · exact hpos
  · exact Nat.mul_pos (by omega) (Nat.two_pow_pos _)

theorem unitsPerOne_ne_zero : unitsPerOne ≠ 0 := by
  have hpow : ∀ n, 2 ^ n ≠ 0 := fun n => Nat.ne_of_gt (Nat.two_pow_pos n)
  rw [unitsPerOne_eq]
  apply hpow

/-- A pattern counts its binade and, within it, its significand. -/
theorem exists_significand (pattern : Nat) :
    ∃ significand shift, units pattern = significand * 2 ^ shift
      ∧ (units pattern).log2 - 52 = shift ∧ shift * 2 ^ 52 + significand = pattern := by
  by_cases hsmall : pattern < 2 ^ 52
  · have hunits : units pattern = pattern := by rw [units_eq, if_pos hsmall]
    have hlog : pattern.log2 < 53 := by
      by_cases hzero : pattern = 0
      · rw [hzero, Nat.log2_zero]
        omega
      · exact (Nat.log2_lt hzero).mpr (by omega)
    rw [hunits]
    exact ⟨pattern, 0, by simp, by omega, by simp⟩
  · have hunits : units pattern = (2 ^ 52 + pattern % 2 ^ 52) * 2 ^ (pattern / 2 ^ 52 - 1) := by
      rw [units_eq, if_neg hsmall]
    have hlog : (2 ^ 52 + pattern % 2 ^ 52).log2 = 52 := by
      rw [Nat.log2_eq_iff (by omega)]
      omega
    rw [hunits]
    refine ⟨2 ^ 52 + pattern % 2 ^ 52, pattern / 2 ^ 52 - 1, rfl, ?_, by omega⟩
    rw [log2_mul_two_pow (by omega), hlog, Nat.add_sub_cancel_left]

/-- What is a whole number of units is rounded to the pattern with these units. -/
theorem nearest_units {pattern num den : Nat} (hfinite : pattern < infinityPattern)
    (hden : 0 < den) (hunits : num * unitsPerOne = units pattern * den) :
    nearest num den = pattern := by
  obtain ⟨significand, shift, hsplit, hshift, hpattern⟩ := exists_significand pattern
  have hround : roundQuotient (units pattern * den) (den * 2 ^ shift) = significand := by
    rw [hsplit, Nat.mul_assoc, Nat.mul_comm (2 ^ shift) den]
    exact roundQuotient_mul significand (Nat.mul_pos hden (Nat.two_pow_pos shift))
  rw [nearest_eq, hunits, Nat.mul_div_cancel _ hden, hshift, hround, hpattern]
  exact Nat.min_eq_right (Nat.le_of_lt hfinite)

theorem nearest_zero : nearest 0 1 = 0 :=
  nearest_units (by rw [infinityPattern_eq]; omega) Nat.one_pos (by simp [units_eq])

theorem nearest_of_large {n : Nat} (h : 1024 ≤ n.log2) : nearest n 1 = infinityPattern := by
  have hne : n ≠ 0 := by
    rintro rfl
    simp [Nat.log2_zero] at h
  have hlog : (n * unitsPerOne).log2 = n.log2 + 1074 := by
    rw [unitsPerOne_eq]
    exact log2_mul_two_pow hne 1074
  have hround : 2 ^ 52 ≤ roundQuotient (n * unitsPerOne) (1 * 2 ^ (n.log2 + 1074 - 52)) := by
    refine Nat.le_trans ?_ (div_le_roundQuotient _ _)
    rw [Nat.one_mul, Nat.le_div_iff_mul_le (Nat.two_pow_pos _), ← Nat.pow_add]
    have hself := Nat.log2_self_le (Nat.mul_ne_zero hne unitsPerOne_ne_zero)
    rw [hlog] at hself
    rwa [show 52 + (n.log2 + 1074 - 52) = n.log2 + 1074 by omega]
  rw [nearest_eq, Nat.div_one, hlog]
  refine Nat.min_eq_left ?_
  rw [infinityPattern_eq]
  omega

theorem nearest_le (num den : Nat) : nearest num den ≤ infinityPattern := Nat.min_le_left _ _

/-! ### Decimals -/

theorem Decimal.pattern_le (decimal : Decimal) : decimal.pattern ≤ infinityPattern := by
  unfold Decimal.pattern
  dsimp only
  split
  · exact Nat.zero_le _
  · split
    · split
      · exact Nat.le_refl _
      · exact nearest_le _ _
    · split
      · exact Nat.zero_le _
      · exact nearest_le _ _

theorem pattern_of_nonneg (coefficient up : Nat) :
    Decimal.pattern ⟨coefficient, up⟩ = nearest (coefficient * 10 ^ up) 1 := by
  by_cases hzero : coefficient = 0
  · simp [Decimal.pattern, hzero, nearest_zero]
  · have hpattern : Decimal.pattern ⟨coefficient, up⟩
        = if 1024 ≤ coefficient.log2 + 3 * up then infinityPattern
          else nearest (coefficient * 10 ^ up) 1 := by
      rw [Decimal.pattern, if_neg hzero]
      rfl
    rw [hpattern]
    split
    · rename_i hlarge
      have hpow : 2 ^ (3 * up) ≤ 10 ^ up := by
        rw [Nat.pow_mul]
        exact Nat.pow_le_pow_left (by omega) up
      have hne : coefficient * 10 ^ up ≠ 0 := Nat.mul_ne_zero hzero (by simp)
      have hlog : coefficient.log2 + 3 * up ≤ (coefficient * 10 ^ up).log2 := by
        rw [Nat.le_log2 hne, Nat.pow_add]
        exact Nat.mul_le_mul (Nat.log2_self_le hzero) hpow
      exact (nearest_of_large (Nat.le_trans hlarge hlog)).symm
    · rfl

theorem pattern_of_negSucc {coefficient : Nat} (hne : coefficient ≠ 0) (less : Nat) :
    Decimal.pattern ⟨coefficient, .negSucc less⟩
      = if coefficient.log2 + 1076 ≤ 3 * (less + 1) then 0
        else nearest coefficient (10 ^ (less + 1)) := by
  rw [Decimal.pattern, if_neg hne]
  rfl

/-- A whole number keeps its value when its zeros are written out. -/
theorem pattern_shift (coefficient up : Nat) :
    Decimal.pattern ⟨coefficient * 10 ^ up, 0⟩ = Decimal.pattern ⟨coefficient, up⟩ := by
  rw [pattern_of_nonneg]
  exact (pattern_of_nonneg (coefficient * 10 ^ up) 0).trans (by simp)

theorem mul_five_pow_pos {n : Nat} (hn : 0 < n) (k : Nat) : 0 < n * 5 ^ k :=
  Nat.mul_pos hn (Nat.pow_pos (by omega))

theorem le_log2_mul_five_pow {n : Nat} (hn : 0 < n) (k : Nat) : 2 * k ≤ (n * 5 ^ k).log2 := by
  have hfour : 2 ^ (2 * k) ≤ 5 ^ k := by
    rw [Nat.pow_mul]
    exact Nat.pow_le_pow_left (by omega) k
  rw [Nat.le_log2 (Nat.ne_of_gt (mul_five_pow_pos hn k))]
  exact Nat.le_trans hfour (Nat.le_mul_of_pos_left _ hn)

theorem exactDecimal_eq (pattern : Nat) :
    exactDecimal pattern = ⟨units pattern * 5 ^ 1074, .negSucc 1073⟩ := by
  unfold exactDecimal
  generalize 1074 = n
  rfl

/-- The exact decimal of a pattern is read back. -/
theorem pattern_exactDecimal {pattern : Nat} (hpos : 0 < pattern)
    (hfinite : pattern < infinityPattern) : (exactDecimal pattern).pattern = pattern := by
  have hunits := units_pos hpos
  have hlog := le_log2_mul_five_pow hunits 1074
  have hten : ∀ n, units pattern * 5 ^ n * 2 ^ n = units pattern * 10 ^ n := fun n => by
    rw [Nat.mul_assoc, ← Nat.mul_pow]
  have hplaces : 1073 + 1 = 1074 := rfl
  rw [exactDecimal_eq, pattern_of_negSucc (Nat.ne_of_gt (mul_five_pow_pos hunits _)), hplaces,
    if_neg (by omega)]
  apply nearest_units hfinite
  · apply Nat.pow_pos
    omega
  · rw [unitsPerOne_eq]
    generalize 1074 = n
    exact hten n

/-- What is found on a grid is read back. -/
theorem pattern_onGrid? {tie : Tie} {pattern : Nat} {exponent : Int} {decimal : Decimal}
    (h : onGrid? tie pattern exponent = some decimal) : decimal.pattern = pattern := by
  unfold onGrid? at h
  dsimp only at h
  split at h
  · rename_i hlower
    split at h
    · rename_i hupper
      simp only [Bool.and_eq_true, decide_eq_true_eq] at hupper
      cases h
      exact hupper.1
    · cases h
      exact hlower
  · split at h
    · rename_i hupper
      cases h
      exact hupper
    · cases h

/-- The shortest decimal of a pattern is read back. -/
theorem pattern_shortest {tie : Tie} {pattern : Nat} (hfinite : pattern < infinityPattern) :
    (shortest tie pattern).pattern = pattern := by
  unfold shortest
  split
  · rename_i hzero
    simp [hzero, Decimal.pattern]
  · rename_i hzero
    dsimp only
    cases hsearch : (List.range 18).findSome? fun (digits : Nat) =>
        onGrid? tie pattern (ceilingExponent pattern - digits) with
    | none => exact pattern_exactDecimal (Nat.pos_of_ne_zero hzero) hfinite
    | some decimal =>
        obtain ⟨digits, -, hgrid⟩ := List.exists_of_findSome?_eq_some hsearch
        exact pattern_onGrid? hgrid

/-! ### Digits -/

theorem digitsValue_eq (digits : List Char) :
    digitsValue digits = Nat.ofDigitChars 10 digits 0 := by
  simp only [digitsValue, Nat.ofDigitChars_eq_foldl, Nat.mul_comm]
  rfl

theorem digitsValue_repr (n : Nat) : digitsValue n.repr.toList = n := by
  rw [digitsValue_eq, Nat.toList_repr, Nat.ofDigitChars_ten_toDigits]

theorem digitsValue_zeros_after (digits : List Char) (zeros : Nat) :
    digitsValue (digits ++ List.replicate zeros '0') = digitsValue digits * 10 ^ zeros := by
  rw [digitsValue_eq, Nat.ofDigitChars_append, Nat.ofDigitChars_replicate_zero, digitsValue_eq,
    Nat.mul_comm]

theorem digitsValue_zeros_before (digits : List Char) (zeros : Nat) :
    digitsValue (List.replicate zeros '0' ++ digits) = digitsValue digits := by
  rw [digitsValue_eq, Nat.ofDigitChars_append, Nat.ofDigitChars_replicate_zero, digitsValue_eq,
    Nat.mul_zero]

theorem isDigit_of_mem_repr {n : Nat} {c : Char} (h : c ∈ n.repr.toList) : c.isDigit := by
  rw [Nat.toList_repr] at h
  exact Nat.isDigit_of_mem_toDigits (by omega) (by omega) h

theorem isDigit_of_mem_zeros {zeros : Nat} {c : Char} (h : c ∈ List.replicate zeros '0') :
    c.isDigit := by
  rw [(List.mem_replicate.mp h).2]
  rfl

/-- Digits, and after a point more digits if there are any. -/
def pointed (whole fraction : List Char) : List Char :=
  if fraction = [] then whole else whole ++ '.' :: fraction

/-- These digits, with a point before the second ones, spell a decimal of this value. -/
structure Spells (whole fraction : List Char) (decimal : Decimal) : Prop where
  whole_ne_nil : whole ≠ []
  isDigit_whole : ∀ c ∈ whole, c.isDigit
  isDigit_fraction : ∀ c ∈ fraction, c.isDigit
  pattern_eq : (Decimal.ofDigits whole fraction).pattern = decimal.pattern

section Layouts

variable {digits : List Char} {places : Nat}

/-- A whole number: its zeros are written out. -/
theorem spells_whole (hne : digits ≠ []) (hdigits : ∀ c ∈ digits, c.isDigit) (up : Nat) :
    Spells (digits ++ List.replicate up '0') [] ⟨digitsValue digits, up⟩ := by
  refine ⟨by simp [hne], fun c hmem => ?_, by simp, ?_⟩
  · rcases List.mem_append.mp hmem with hmem | hmem
    · exact hdigits c hmem
    · exact isDigit_of_mem_zeros hmem
  · rw [Decimal.ofDigits, List.append_nil, digitsValue_zeros_after]
    exact pattern_shift (digitsValue digits) up

theorem spells_inside (hdigits : ∀ c ∈ digits, c.isDigit) (hinside : places < digits.length) :
    Spells (digits.take (digits.length - places)) (digits.drop (digits.length - places))
      ⟨digitsValue digits, -places⟩ := by
  refine ⟨fun hnil => ?_, fun c hmem => hdigits c (List.mem_of_mem_take hmem),
    fun c hmem => hdigits c (List.mem_of_mem_drop hmem), ?_⟩
  · have hlength := congrArg List.length hnil
    rw [List.length_take, List.length_nil] at hlength
    omega
  · have hlength : (digits.drop (digits.length - places)).length = places := by
      rw [List.length_drop]
      omega
    rw [Decimal.ofDigits, List.take_append_drop, hlength]

theorem spells_before (hdigits : ∀ c ∈ digits, c.isDigit) (hbefore : digits.length ≤ places) :
    Spells ['0'] (List.replicate (places - digits.length) '0' ++ digits)
      ⟨digitsValue digits, -places⟩ := by
  refine ⟨by simp, by simp, fun c hmem => ?_, ?_⟩
  · rcases List.mem_append.mp hmem with hmem | hmem
    · exact isDigit_of_mem_zeros hmem
    · exact hdigits c hmem
  · have hlength : (List.replicate (places - digits.length) '0' ++ digits).length = places := by
      rw [List.length_append, List.length_replicate]
      omega
    have hzeros := digitsValue_zeros_before digits (places - digits.length + 1)
    rw [List.replicate_succ, List.cons_append] at hzeros
    rw [Decimal.ofDigits, List.singleton_append, hzeros, hlength]

end Layouts

/-- A layout without an exponent spells the decimal it lays out. -/
theorem spells_positional (coefficient : Nat) (exponent : Int) :
    ∃ whole fraction, (positional "" coefficient.repr exponent).toList = pointed whole fraction
      ∧ Spells whole fraction ⟨coefficient, exponent⟩ := by
  have hne : coefficient.repr.toList ≠ [] := by
    rw [Nat.toList_repr]
    exact Nat.toDigits_ne_nil
  have hdigits : ∀ c ∈ coefficient.repr.toList, c.isDigit := fun c => isDigit_of_mem_repr
  have hlength : coefficient.repr.length = coefficient.repr.toList.length :=
    String.length_toList.symm
  have hvalue := digitsValue_repr coefficient
  unfold positional
  dsimp only
  by_cases hexponent : 0 ≤ exponent
  · obtain ⟨up, rfl⟩ := Int.eq_ofNat_of_zero_le hexponent
    have hspells := spells_whole hne hdigits up
    rw [hvalue] at hspells
    exact ⟨_, _, by simp [pointed], hspells⟩
  · obtain ⟨places, hplaces, rfl⟩ : ∃ places : Nat, 0 < places ∧ exponent = -(places : Int) :=
      ⟨(-exponent).toNat, by omega, by omega⟩
    rw [if_neg hexponent, Int.neg_neg, Int.toNat_natCast, hlength]
    by_cases hinside : places < coefficient.repr.toList.length
    · have hspells := spells_inside hdigits hinside
      have hfraction :
          coefficient.repr.toList.drop (coefficient.repr.toList.length - places) ≠ [] := by
        intro hnil
        have hdrop := congrArg List.length hnil
        rw [List.length_drop, List.length_nil] at hdrop
        omega
      rw [hvalue] at hspells
      refine ⟨_, _, ?_, hspells⟩
      rw [if_pos hinside, pointed, if_neg hfraction]
      simp
    · have hspells := spells_before hdigits (Nat.le_of_not_lt hinside)
      rw [hvalue] at hspells
      refine ⟨_, _, ?_, hspells⟩
      rw [if_neg hinside, pointed, if_neg (by simp)]
      simp

/-! ### Reading the digits -/

def EndsNumber (tail : List Char) : Prop := ∀ c ∈ tail.head?, c.isDigit = false ∧ c ≠ '.'

theorem EndsNumber.takeWhile {tail : List Char} (h : EndsNumber tail) :
    tail.takeWhile Char.isDigit = [] := by
  cases tail with
  | nil => rfl
  | cons c tail => simp [(h c rfl).1]

theorem EndsNumber.dropWhile {tail : List Char} (h : EndsNumber tail) :
    tail.dropWhile Char.isDigit = tail := by
  cases tail with
  | nil => rfl
  | cons c tail => simp [(h c rfl).1]

/-- A number is scanned up to where its digits end. -/
theorem numeral_pointed {whole fraction tail : List Char} (hwhole : ∀ c ∈ whole, c.isDigit)
    (hfraction : ∀ c ∈ fraction, c.isDigit) (htail : EndsNumber tail) :
    Token.numeral (pointed whole fraction ++ tail)
      = ⟨.number ((Decimal.ofDigits whole fraction).toFloat false), pointed whole fraction, tail⟩ := by
  cases fraction with
  | nil =>
      have htake : (whole ++ tail).takeWhile Char.isDigit = whole := by
        rw [List.takeWhile_append_of_pos hwhole, htail.takeWhile, List.append_nil]
      have hdrop : (whole ++ tail).dropWhile Char.isDigit = tail := by
        rw [List.dropWhile_append_of_pos hwhole, htail.dropWhile]
      simp only [pointed, if_true, Token.numeral, htake, hdrop]
      cases tail with
      | nil => rfl
      | cons c tail =>
          have hpoint := (htail c rfl).2
          split
          · rename_i heq
            cases heq
            exact absurd rfl hpoint
          · rfl
  | cons digit digits =>
      have htake : (whole ++ ('.' :: ((digit :: digits) ++ tail))).takeWhile Char.isDigit = whole := by
        rw [List.takeWhile_append_of_pos hwhole, List.takeWhile_cons_of_neg (by decide),
          List.append_nil]
      have hdrop : (whole ++ ('.' :: ((digit :: digits) ++ tail))).dropWhile Char.isDigit
          = '.' :: ((digit :: digits) ++ tail) := by
        rw [List.dropWhile_append_of_pos hwhole, List.dropWhile_cons_of_neg (by decide)]
      have htakeRest : ((digit :: digits) ++ tail).takeWhile Char.isDigit = digit :: digits := by
        rw [List.takeWhile_append_of_pos hfraction, htail.takeWhile, List.append_nil]
      have hdropRest : ((digit :: digits) ++ tail).dropWhile Char.isDigit = tail := by
        rw [List.dropWhile_append_of_pos hfraction, htail.dropWhile]
      have hstarts : Token.startsWithDigit ((digit :: digits) ++ tail) = true := by
        simp [Token.startsWithDigit, hfraction digit]
      have hpointed : pointed whole (digit :: digits) = whole ++ '.' :: (digit :: digits) := by
        rw [pointed, if_neg (by simp)]
      rw [hpointed, List.append_assoc, List.cons_append]
      simp only [Token.numeral, htake, hdrop, hstarts, htakeRest, hdropRest, if_true]

def IsNumeral (x : Float) : Prop := ∃ decimal : Decimal, x = decimal.toFloat false ∧ x.isFinite

/-- A number is shown by digits, with a point before some of them if need be. -/
theorem toList_displayNumber {x : Float} (hx : IsNumeral x) :
    ∃ whole fraction decimal, (Value.displayNumber x).toList = pointed whole fraction
      ∧ Spells whole fraction decimal ∧ decimal.toFloat false = x := by
  obtain ⟨source, rfl, hfinite⟩ := hx
  have hpattern : source.pattern < infinityPattern := by
    refine Nat.lt_of_le_of_ne source.pattern_le fun hinfinite => ?_
    rw [Decimal.toFloat, hinfinite, not_isFinite_infinity] at hfinite
    cases hfinite
  have hdisplay : Value.displayNumber (source.toFloat false)
      = positional "" (shortest .upward source.pattern).coefficient.repr
        (shortest .upward source.pattern).exponent := by
    have hnan := Bool.eq_false_iff.mp (isNaN_eq_false_of_isFinite hfinite)
    have hinf := Bool.eq_false_iff.mp (isInf_eq_false_of_isFinite hfinite)
    rw [Value.displayNumber, if_neg hnan, if_neg hinf, Decimal.toFloat, Layout.write]
    simp only [isNegative_ofPattern hpattern, patternOf_ofPattern hpattern, Bool.false_and]
    rfl
  obtain ⟨whole, fraction, hpointed, hspells⟩ := spells_positional _ _
  refine ⟨whole, fraction, shortest .upward source.pattern, hdisplay ▸ hpointed, hspells, ?_⟩
  rw [Decimal.toFloat, pattern_shortest hpattern, Decimal.toFloat]

theorem startsWithDigit_displayNumber {x : Float} (hx : IsNumeral x) :
    ∃ c rest, (Value.displayNumber x).toList = c :: rest ∧ c.isDigit := by
  obtain ⟨whole, fraction, decimal, hdisplay, hspells, -⟩ := toList_displayNumber hx
  obtain ⟨c, rest, rfl⟩ := List.exists_cons_of_ne_nil hspells.whole_ne_nil
  rw [hdisplay, pointed]
  split
  · exact ⟨c, rest, rfl, hspells.isDigit_whole c (by simp)⟩
  · exact ⟨c, _, rfl, hspells.isDigit_whole c (by simp)⟩

/-- **Numbers read back.** Where neither a digit nor a point follows, what is shown for a number that
a source can hold is read as this number. -/
theorem numeral_displayNumber {x : Float} (hx : IsNumeral x) {tail : List Char}
    (htail : EndsNumber tail) :
    Token.numeral ((Value.displayNumber x).toList ++ tail)
      = ⟨.number x, (Value.displayNumber x).toList, tail⟩ := by
  obtain ⟨whole, fraction, decimal, hdisplay, hspells, hx⟩ := toList_displayNumber hx
  have hsame : (Decimal.ofDigits whole fraction).toFloat false = x := by
    rw [← hx, Decimal.toFloat, hspells.pattern_eq, Decimal.toFloat]
  rw [hdisplay, numeral_pointed hspells.isDigit_whole hspells.isDigit_fraction htail, hsame]

end Flowchart.Number
