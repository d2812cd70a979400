import Decommission.Time.Span.Reader

/-!
# Reading what the writer of spans has written

A span text that was written for a duration is read as that duration, however long
it is.  The writer takes the longest unit first, so what is left for a unit is less
than one of the unit before (`Graded`).  Hence every count fits 64 bits, and what is
counted in nanoseconds stays below two seconds.

`readAll?_spanTexts` follows the writer from part to part.  The reader arrives between
two counts after every part but the last.
-/

namespace Decommission

namespace SpanReader

/-- Read to the end of a text. -/
def readAll? (r : SpanReader) (cs : List Char) : Option Nat :=
  (cs.foldlM step r).bind finish?

variable {total n count bound : Nat} {any : Bool} {cs : List Char} {p : SpanPart}
  {ps : List SpanPart}

/-! ## Counts -/

theorem isBlank_of_isDigit {c : Char} (h : c.isDigit) : isBlank c = false := by
  rw [Char.isDigit, Bool.and_eq_true, decide_eq_true_eq, decide_eq_true_eq] at h
  have hlow : 48 ≤ c.toNat := h.1
  have hhigh : c.toNat ≤ 57 := h.2
  simp only [isBlank, Bool.or_eq_false_iff, Bool.and_eq_false_iff, decide_eq_false_iff_not,
    beq_eq_false_iff_ne]
  omega

theorem shift?_eq {c : Char} (h : 10 * n + (c.toNat - '0'.toNat) < range64) :
    shift? n c = some (10 * n + (c.toNat - '0'.toNat)) := by
  rw [shift?, fits64, Nat.mul_comm n 10, if_pos h]

/-- More digits make a number no smaller. -/
theorem le_ofDigitChars (cs : List Char) (n : Nat) : n ≤ Nat.ofDigitChars 10 cs n := by
  rw [Nat.ofDigitChars_eq_ofDigitChars_zero]
  exact Nat.le_trans (Nat.le_mul_of_pos_left n (Nat.pow_pos (by decide))) (Nat.le_add_right ..)

/-- Digits after the first go on with the count. -/
theorem foldlM_digits (h : ∀ c ∈ cs, c.isDigit) (hfits : Nat.ofDigitChars 10 cs n < range64) :
    cs.foldlM step ⟨total, any, .count n⟩ =
      some ⟨total, any, .count (Nat.ofDigitChars 10 cs n)⟩ := by
  induction cs generalizing n with
  | nil => rfl
  | cons c cs ih =>
      obtain ⟨hc, hcs⟩ := List.forall_mem_cons.mp h
      rw [Nat.ofDigitChars_cons] at hfits ⊢
      have hshift := shift?_eq (Nat.lt_of_le_of_lt (le_ofDigitChars cs _) hfits)
      have hstep : step ⟨total, any, .count n⟩ c =
          some ⟨total, any, .count (10 * n + (c.toNat - '0'.toNat))⟩ := by
        simp only [step, hc, if_true, hshift, Option.map_some]
      rw [List.foldlM_cons, hstep]
      exact ih hcs hfits

/-- The digits of a number are read as that number. -/
theorem foldlM_toDigits (hfits : count < range64) :
    (Nat.toDigits 10 count).foldlM step ⟨total, any, .between⟩ =
      some ⟨total, any, .count count⟩ := by
  have hdigits : ∀ c ∈ Nat.toDigits 10 count, c.isDigit :=
    fun c => Nat.isDigit_of_mem_toDigits (by decide) (by decide)
  have hvalue := Nat.ofDigitChars_ten_toDigits (n := count)
  cases hcs : Nat.toDigits 10 count with
  | nil => exact absurd hcs Nat.toDigits_ne_nil
  | cons c cs =>
      rw [hcs] at hdigits hvalue
      obtain ⟨hc, hrest⟩ := List.forall_mem_cons.mp hdigits
      rw [Nat.ofDigitChars_cons] at hvalue
      have hle := le_ofDigitChars cs (10 * 0 + (c.toNat - '0'.toNat))
      have hshift := shift?_eq (n := 0) (c := c) (by omega)
      have hstep : step ⟨total, any, .between⟩ c =
          some ⟨total, any, .count (10 * 0 + (c.toNat - '0'.toNat))⟩ := by
        simp only [step, isBlank_of_isDigit hc, Bool.false_eq_true, if_false, hc, if_true, hshift,
          Option.map_some]
      rw [List.foldlM_cons, hstep]
      refine (foldlM_digits hrest (by omega)).trans ?_
      rw [hvalue]

/-! ## Units -/

/-- Whether a text is read as the name of a unit. -/
def Names (u : SpanUnit) (name : List Char) : Prop :=
  name ≠ [] ∧ (name.all fun c => isLetter c && !c.isDigit && !isBlank c) ∧
    SpanUnit.ofName? name = some u

theorem Names.letters {u : SpanUnit} {name : List Char} (h : Names u name) :
    ∀ c ∈ name, isLetter c = true ∧ c.isDigit = false ∧ isBlank c = false := by
  intro c hc
  have hletter := List.all_eq_true.mp h.2.1 c hc
  simpa only [Bool.and_eq_true, Bool.not_eq_true', and_assoc] using hletter

/-- The texts that the writer puts behind counts are names of the units. -/
theorem names_of_mem_spanParts : ∀ p ∈ spanParts, Names p.unit p.one.toList ∧
    Names p.unit p.many.toList := by
  unfold Names
  decide

/-- More letters go on with the name of the unit. -/
theorem foldlM_letters {letters : List Char} (h : ∀ c ∈ cs, isLetter c = true) :
    cs.foldlM step ⟨total, any, .unit count none letters⟩ =
      some ⟨total, any, .unit count none (cs.reverse ++ letters)⟩ := by
  induction cs generalizing letters with
  | nil => rfl
  | cons c cs ih =>
      obtain ⟨hc, hcs⟩ := List.forall_mem_cons.mp h
      have hstep : step ⟨total, any, .unit count none letters⟩ c =
          some ⟨total, any, .unit count none (c :: letters)⟩ := by
        simp only [step, hc, if_true]
      rw [List.foldlM_cons, hstep]
      refine (ih hcs).trans ?_
      rw [List.reverse_cons, List.append_assoc]
      rfl

/-- The name of a unit is read after a count. -/
theorem foldlM_name {u : SpanUnit} {name : List Char} (h : Names u name) :
    name.foldlM step ⟨total, any, .count count⟩ =
      some ⟨total, any, .unit count none name.reverse⟩ := by
  have hletters := h.letters
  cases name with
  | nil => exact absurd rfl h.1
  | cons c cs =>
      obtain ⟨⟨hletter, hdigit, hblank⟩, hcs⟩ := List.forall_mem_cons.mp hletters
      have hstep : step ⟨total, any, .count count⟩ c =
          some ⟨total, any, .unit count none [c]⟩ := by
        simp only [step, hdigit, hblank, Bool.false_eq_true, if_false, hletter, if_true]
      rw [List.foldlM_cons, hstep]
      refine (foldlM_letters fun c hc => (hcs c hc).1).trans ?_
      rw [List.reverse_cons]

/-- What is counted in the grain of a unit is a whole number of grains. -/
theorem nanos_div_countGrain_mul (u : SpanUnit) :
    u.nanos / u.countGrain * u.countGrain = u.nanos := by
  cases u <;> decide

/-- Counts of what a duration can hold fit 64 bits. -/
theorem count_mul_lt {u : SpanUnit} (hlongest : count * u.nanos ≤ longestNanos)
    (hgrain : u.countGrain = 1 → count * u.nanos < nanosPerSecond) :
    count * (u.nanos / u.countGrain) < range64 := by
  have hcases : u.countGrain = 1 ∨ u.countGrain = nanosPerSecond := by
    cases u <;> decide
  rcases hcases with hone | hsecond
  · rw [hone, Nat.div_one]
    exact Nat.lt_trans (hgrain hone) (by decide)
  · have hgrains := nanos_div_countGrain_mul u
    have hrange : longestNanos < range64 * nanosPerSecond := by decide
    rw [hsecond] at hgrains ⊢
    refine Nat.lt_of_mul_lt_mul_right (a := nanosPerSecond) ?_
    rw [Nat.mul_assoc, hgrains]
    exact Nat.lt_of_le_of_lt hlongest hrange

theorem count_lt {u : SpanUnit} (hlongest : count * u.nanos ≤ longestNanos)
    (hgrain : u.countGrain = 1 → count * u.nanos < nanosPerSecond) : count < range64 := by
  have hpos : 0 < u.nanos / u.countGrain := by
    cases u <;> decide
  exact Nat.lt_of_le_of_lt (Nat.le_mul_of_pos_right count hpos) (count_mul_lt hlongest hgrain)

/-- A span is added to the sum. -/
theorem close?_eq (total : Nat) {u : SpanUnit} {name : List Char} (h : Names u name)
    (hlongest : total + count * u.nanos ≤ longestNanos)
    (hgrain : u.countGrain = 1 → count * u.nanos < nanosPerSecond) :
    close? total count none name.reverse = some (total + count * u.nanos) := by
  have hgrains : count * (u.nanos / u.countGrain) * u.countGrain = count * u.nanos := by
    rw [Nat.mul_assoc, nanos_div_countGrain_mul]
  have hfits := count_mul_lt (Nat.le_trans (Nat.le_add_left ..) hlongest) hgrain
  have hadd : add? total u.countGrain (count * u.nanos) = some (total + count * u.nanos) := by
    rw [add?, if_neg, if_pos hlongest]
    rintro ⟨hone, hover⟩
    have hlt := hgrain hone
    have hrest : total % nanosPerSecond < nanosPerSecond := Nat.mod_lt _ (by decide)
    have hrange : nanosPerSecond + nanosPerSecond < range64 := by decide
    omega
  rw [close?, List.reverse_reverse, h.2.2]
  simp only [Option.bind_eq_bind, Option.bind_some, SpanUnit.countNanos?, fits64, if_pos hfits,
    Option.map_some, hgrains, hadd]

/-! ## Parts -/

/-- The texts of a part that the writer puts behind a count. -/
def partName (p : SpanPart) (count : Nat) : List Char :=
  (if count = 1 then p.one else p.many).toList

theorem names_partName (h : p ∈ spanParts) (count : Nat) : Names p.unit (partName p count) := by
  obtain ⟨hone, hmany⟩ := names_of_mem_spanParts p h
  rw [partName]
  split
  · exact hone
  · exact hmany

theorem toList_text (p : SpanPart) (count : Nat) :
    (p.text count).toList = Nat.toDigits 10 count ++ partName p count := by
  rw [SpanPart.text, String.toList_append, Nat.toString_eq_ofList_toDigits, String.toList_ofList,
    partName]

/-- A part is read up to the last letter of its unit. -/
theorem foldlM_text (h : p ∈ spanParts) (hfits : count < range64) :
    (p.text count).toList.foldlM step ⟨total, any, .between⟩ =
      some ⟨total, any, .unit count none (partName p count).reverse⟩ := by
  rw [toList_text, List.foldlM_append, foldlM_toDigits hfits]
  exact foldlM_name (names_partName h count)

/-- The end of the text closes the span. -/
theorem finish?_unit {letters : List Char} :
    finish? ⟨total, any, .unit count none letters⟩ = close? total count none letters := rfl

/-- A blank after the unit closes the span. -/
theorem step_blank {letters : List Char} {sum : Nat}
    (h : close? total count none letters = some sum) :
    step ⟨total, any, .unit count none letters⟩ ' ' = some ⟨sum, true, .between⟩ := by
  have hletter : isLetter ' ' = false := by decide
  have hdigit : Char.isDigit ' ' = false := by decide
  have hblank : isBlank ' ' = true := by decide
  simp only [step, hletter, hdigit, hblank, h, Bool.false_eq_true, if_false, if_true,
    Option.bind_eq_bind, Option.bind_some]

/-- A part that the text ends with is read. -/
theorem readAll?_text {sum : Nat} (h : p ∈ spanParts) (hfits : count < range64)
    (hclose : close? total count none (partName p count).reverse = some sum) :
    readAll? ⟨total, any, .between⟩ (p.text count).toList = some sum := by
  rw [readAll?, foldlM_text h hfits, Option.bind_some, finish?_unit, hclose]

/-- A part that is followed by a blank is read before the rest. -/
theorem readAll?_text_append {sum : Nat} (h : p ∈ spanParts) (hfits : count < range64)
    (hclose : close? total count none (partName p count).reverse = some sum) (rest : String) :
    readAll? ⟨total, any, .between⟩ (p.text count ++ " " ++ rest).toList =
      readAll? ⟨sum, true, .between⟩ rest.toList := by
  rw [readAll?, String.toList_append, String.toList_append, List.foldlM_append,
    List.foldlM_append, foldlM_text h hfits]
  simp only [Option.bind_eq_bind, Option.bind_some]
  show (((step _ ' ').bind fun r => some r).bind _).bind _ = _
  rw [step_blank hclose]
  rfl

/-! ## The whole text -/

/-- What is left once each part has taken what it can. -/
def remnant : List SpanPart → Nat → Nat
  | [], n => n
  | p :: ps, n => remnant ps (n % p.unit.nanos)

/-- Whether parts below the second come only where less than a second is left, if less
than a bound is left at first. -/
def Graded : (bound : Nat) → List SpanPart → Prop
  | _, [] => True
  | bound, p :: ps =>
      (p.unit.countGrain = 1 → bound ≤ nanosPerSecond) ∧ 0 < p.unit.nanos ∧
        Graded p.unit.nanos ps

theorem graded_spanParts : Graded (longestNanos + 1) spanParts := by
  simp only [Graded, spanParts]
  decide

theorem remnant_le (ps : List SpanPart) (n : Nat) : remnant ps n ≤ n := by
  induction ps generalizing n with
  | nil => exact Nat.le_refl n
  | cons p ps ih => exact Nat.le_trans (ih _) (Nat.mod_le ..)

/-- If no part is written, all is left. -/
theorem remnant_of_spanTexts_eq_nil (h : spanTexts ps n = []) : remnant ps n = n := by
  induction ps generalizing n with
  | nil => rfl
  | cons p ps ih =>
      rw [spanTexts] at h
      split at h
      · rename_i hzero
        rw [remnant, ih h]
        have hmod := Nat.div_add_mod n p.unit.nanos
        rw [hzero, Nat.mul_zero, Nat.zero_add] at hmod
        exact hmod
      · cases h

/-- What the parts have taken is read. -/
theorem readAll?_spanTexts (total : Nat) (any : Bool) (hps : ∀ p ∈ ps, p ∈ spanParts)
    (hgraded : Graded bound ps) (hbound : n < bound) (hlongest : total + n ≤ longestNanos)
    (hne : spanTexts ps n ≠ []) :
    readAll? ⟨total, any, .between⟩ (" ".intercalate (spanTexts ps n)).toList =
      some (total + (n - remnant ps n)) := by
  induction ps generalizing n total any bound with
  | nil => exact absurd rfl hne
  | cons p ps ih =>
      obtain ⟨hp, hrest⟩ := List.forall_mem_cons.mp hps
      obtain ⟨hgrain, hpos, hgraded⟩ := hgraded
      have hmod := Nat.div_add_mod n p.unit.nanos
      rw [Nat.mul_comm] at hmod
      have hlt := Nat.mod_lt n hpos
      have hleft := remnant_le ps (n % p.unit.nanos)
      rw [spanTexts, remnant]
      rw [spanTexts] at hne
      by_cases hzero : n / p.unit.nanos = 0
      · rw [if_pos hzero] at hne ⊢
        rw [hzero, Nat.zero_mul, Nat.zero_add] at hmod
        rw [hmod] at hne hlt ⊢
        exact ih total any hrest hgraded hlt hlongest hne
      · rw [if_neg hzero]
        have hsmall : p.unit.countGrain = 1 →
            n / p.unit.nanos * p.unit.nanos < nanosPerSecond := by
          intro hone
          have hle := hgrain hone
          omega
        have hfits := count_lt (by omega) hsmall
        have hclose := close?_eq total (names_partName hp (n / p.unit.nanos)) (by omega) hsmall
        by_cases hlast : spanTexts ps (n % p.unit.nanos) = []
        · -- The last part: the end of the text closes it.
          rw [hlast, String.intercalate_singleton, readAll?_text hp hfits hclose,
            remnant_of_spanTexts_eq_nil hlast]
          refine congrArg some ?_
          omega
        · have hnext := ih (total + n / p.unit.nanos * p.unit.nanos) true hrest hgraded hlt
            (by omega) hlast
          rw [String.intercalate_cons_of_ne_nil hlast, readAll?_text_append hp hfits hclose, hnext]
          refine congrArg some ?_
          omega

end SpanReader

/-- Every duration is read from its span text. -/
theorem Duration.ofSpan?_span (d : Duration) : Duration.ofSpan? d.span = some d := by
  rw [Duration.span]
  by_cases hzero : d.nanos = 0
  · rw [if_pos hzero]
    have hd : d = .zero := Duration.ext hzero
    rw [hd]
    decide
  · rw [if_neg hzero]
    have hall : SpanReader.remnant spanParts d.nanos = 0 := Nat.mod_one _
    have hne : spanTexts spanParts d.nanos ≠ [] := fun h =>
      hzero ((SpanReader.remnant_of_spanTexts_eq_nil h).symm.trans hall)
    have hread := SpanReader.readAll?_spanTexts 0 false (fun _ hp => hp)
      SpanReader.graded_spanParts (Nat.lt_succ_of_le d.nanos_le)
      ((Nat.zero_add _).symm ▸ d.nanos_le) hne
    rw [hall, Nat.sub_zero, Nat.zero_add] at hread
    rw [Duration.ofSpan?, if_neg]
    · show (List.foldlM SpanReader.step ⟨0, false, .between⟩ _).bind _ = _
      rw [← Option.bind_assoc]
      show (SpanReader.readAll? _ _).bind _ = _
      rw [hread]
      exact Duration.ofNanos?_nanos d
    · -- A lone zero would not be read, since it has no unit.
      intro hlone
      have hnone : SpanReader.readAll? ⟨0, false, .between⟩ ['0'] = none := by decide
      rw [hlone, hnone] at hread
      cases hread

end Decommission
