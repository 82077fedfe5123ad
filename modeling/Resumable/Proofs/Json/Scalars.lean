import Mathlib.Data.List.DropRight
import Mathlib.Data.List.TakeWhile
import Mathlib.Tactic.IntervalCases
import Resumable.Json.Standard
import Resumable.Proofs.Json.Laws

/-! Reading past blanks, and reading numbers and strings out of JSON text, whatever stands behind
them. -/

namespace Resumable.Json

variable {c d : Char} {cs rest more whole gap : List Char} {json : Json} {negative : Bool}
  {levels : Nat} {result : Json × List Char}

/-! ### Blanks -/

@[simp] theorem skipBlank_cons (solid : isBlank c = false) :
    skipBlank (c :: cs) = c :: cs := by
  simp [skipBlank, solid]

theorem skipBlank_blanks (blank : ∀ c ∈ gap, isBlank c = true) (cs : List Char) :
    skipBlank (gap ++ cs) = skipBlank cs :=
  List.dropWhile_append_of_pos blank

theorem skipBlank_skipBlank (cs : List Char) : skipBlank (skipBlank cs) = skipBlank cs := by
  unfold skipBlank
  exact List.dropWhile_idempotent _ _

theorem skipBlank_append (solid : skipBlank cs ≠ []) (rest : List Char) :
    skipBlank (cs ++ rest) = skipBlank cs ++ rest := by
  unfold skipBlank at solid ⊢
  rw [List.dropWhile_append, if_neg (mt List.isEmpty_iff.mp solid)]

theorem value_skipBlank (levels : Nat) (cs : List Char) :
    value levels (skipBlank cs) = value levels cs := by
  unfold value
  rw [skipBlank_skipBlank]

theorem value_blanks (blank : ∀ c ∈ gap, isBlank c = true) (levels : Nat) (cs : List Char) :
    value levels (gap ++ cs) = value levels cs := by
  rw [← value_skipBlank, skipBlank_blanks blank, value_skipBlank]

theorem value_starts (read : value levels cs = .ok result) :
    skipBlank cs ≠ [] ∧ ∀ rest, skipBlank cs ≠ ']' :: rest := by
  rw [← value_skipBlank] at read
  constructor
  · intro none
    rw [none, value] at read
    cases read
  · intro rest closed
    rw [closed, value] at read
    cases read

/-! ### Numbers in front of other text -/

/-- No number goes on with the text. -/
def Ends (cs : List Char) : Prop :=
  ∀ c ∈ cs.head?, c.isDigit = false ∧ c ≠ '.' ∧ c ≠ 'e' ∧ c ≠ 'E'

theorem Ends.nil : Ends [] := by
  intro c none
  simp at none

theorem Ends.cons (digit : c.isDigit = false) (point : c ≠ '.') (lower : c ≠ 'e')
    (upper : c ≠ 'E') : Ends (c :: rest) := by
  intro first same
  obtain rfl : c = first := by simpa using same
  exact ⟨digit, point, lower, upper⟩

theorem Ends.takeWhile_append (ends : Ends more) (cs : List Char) :
    (cs ++ more).takeWhile Char.isDigit = cs.takeWhile Char.isDigit := by
  induction cs with
  | nil =>
      cases more with
      | nil => rfl
      | cons c more => simp [(ends c rfl).1]
  | cons c cs ih => cases digit : c.isDigit <;> simp [digit, ih]

theorem Ends.dropWhile_append (ends : Ends more) (cs : List Char) :
    (cs ++ more).dropWhile Char.isDigit = cs.dropWhile Char.isDigit ++ more := by
  induction cs with
  | nil =>
      cases more with
      | nil => rfl
      | cons c more => simp [(ends c rfl).1]
  | cons c cs ih => cases digit : c.isDigit <;> simp [digit, ih]

theorem Ends.head?_append_ne (ends : Ends more)
    (mark : ∀ {c : Char}, c.isDigit = false ∧ c ≠ '.' ∧ c ≠ 'e' ∧ c ≠ 'E' → c ≠ d)
    (other : cs.head? ≠ some d) : (cs ++ more).head? ≠ some d := by
  cases cs with
  | nil => exact fun same => mark (ends d same) rfl
  | cons c cs => exact other

theorem floating_append {digits : UInt64} {exponent : Int}
    (read : floating negative digits exponent cs = .ok (json, rest)) (more : List Char) :
    floating negative digits exponent (cs ++ more) = .ok (json, rest ++ more) := by
  unfold floating at read ⊢
  split at read
  · cases read
    rfl
  · cases read

theorem integer_append {digits : UInt64} (read : integer negative digits cs = .ok (json, rest))
    (more : List Char) : integer negative digits (cs ++ more) = .ok (json, rest ++ more) := by
  unfold integer at read ⊢
  split at read
  · split at read
    · cases read
      simp [*]
    · simp only [*, if_true]
      exact floating_append read more
  · cases read
    simp [*]

/-- The digits of an exponent behind its sign, which has decided what their number is added to. -/
def exponentDigits (negative : Bool) (digits : UInt64) (exponent : Nat → Int) :
    List Char → Reading (Json × List Char)
  | [] => .error []
  | c :: rest =>
    if c.isDigit then
      floating negative digits (exponent (numeral ((c :: rest).takeWhile Char.isDigit)))
        ((c :: rest).dropWhile Char.isDigit)
    else .error rest

theorem exponentDigits_append {digits : UInt64} {exponent : Nat → Int} (ends : Ends more)
    (read : exponentDigits negative digits exponent cs = .ok (json, rest)) :
    exponentDigits negative digits exponent (cs ++ more) = .ok (json, rest ++ more) := by
  cases cs with
  | nil => cases read
  | cons c tail =>
      rw [List.cons_append, exponentDigits, ← List.cons_append, ends.takeWhile_append,
        ends.dropWhile_append]
      rw [exponentDigits] at read
      split at read
      · rw [if_pos (by assumption)]
        exact floating_append read more
      · cases read

theorem exponentPart_cons (negative : Bool) (digits : UInt64) (exponent : Int) (c : Char)
    (rest : List Char) :
    exponentPart negative digits exponent (c :: rest) =
      if c = '+' then exponentDigits negative digits (exponent + ·) rest
      else if c = '-' then exponentDigits negative digits (exponent - ·) rest
      else exponentDigits negative digits (exponent + ·) (c :: rest) := by
  unfold exponentPart
  split_ifs with plus minus
  · subst plus
    cases rest <;> rfl
  · subst minus
    cases rest <;> rfl
  · simp [plus, minus, exponentDigits]

theorem exponentPart_append {digits : UInt64} {exponent : Int} (ends : Ends more)
    (read : exponentPart negative digits exponent cs = .ok (json, rest)) :
    exponentPart negative digits exponent (cs ++ more) = .ok (json, rest ++ more) := by
  cases cs with
  | nil => cases read
  | cons c tail =>
      rw [List.cons_append, exponentPart_cons]
      rw [exponentPart_cons] at read
      split_ifs at read ⊢
      · exact exponentDigits_append ends read
      · exact exponentDigits_append ends read
      · exact exponentDigits_append ends read

/-- Digits with an exponent behind them, or `alone`. -/
def withExponent (negative : Bool) (digits : UInt64) (exponent : Int)
    (alone : List Char → Reading (Json × List Char)) (cs : List Char) :
    Reading (Json × List Char) :=
  match cs with
  | 'e' :: rest | 'E' :: rest => exponentPart negative digits exponent rest
  | _ => alone cs

theorem withExponent_alone {digits : UInt64} {exponent : Int}
    {alone : List Char → Reading (Json × List Char)} (lower : cs.head? ≠ some 'e')
    (upper : cs.head? ≠ some 'E') :
    withExponent negative digits exponent alone cs = alone cs := by
  unfold withExponent
  split
  · simp at lower
  · simp at upper
  · rfl

theorem withExponent_append {digits : UInt64} {exponent : Int}
    {alone : List Char → Reading (Json × List Char)} (ends : Ends more)
    (frame : alone cs = .ok (json, rest) → alone (cs ++ more) = .ok (json, rest ++ more))
    (read : withExponent negative digits exponent alone cs = .ok (json, rest)) :
    withExponent negative digits exponent alone (cs ++ more) = .ok (json, rest ++ more) := by
  by_cases lower : cs.head? = some 'e'
  · obtain ⟨tail, rfl⟩ := List.head?_eq_some_iff.mp lower
    exact exponentPart_append ends read
  by_cases upper : cs.head? = some 'E'
  · obtain ⟨tail, rfl⟩ := List.head?_eq_some_iff.mp upper
    exact exponentPart_append ends read
  rw [withExponent_alone lower upper] at read
  rw [withExponent_alone (ends.head?_append_ne (·.2.2.1) lower)
    (ends.head?_append_ne (·.2.2.2) upper)]
  exact frame read

theorem fractionPart_point (negative : Bool) (whole cs : List Char) :
    fractionPart negative whole ('.' :: cs) =
      if (cs.takeWhile Char.isDigit).isEmpty then .error (cs.drop 1)
      else
        let places := cs.takeWhile Char.isDigit
        let (digits, passed) := fitting (fitting 0 whole).1 places
        withExponent negative digits
          ((fitting 0 whole).2.length - (places.length - passed.length))
          (floating negative digits ((fitting 0 whole).2.length - (places.length - passed.length)))
          (cs.dropWhile Char.isDigit) := by
  unfold fractionPart
  simp only
  split
  · rfl
  · rfl

theorem fractionPart_pointless (pointless : cs.head? ≠ some '.') :
    fractionPart negative whole cs =
      withExponent negative (fitting 0 whole).1 (fitting 0 whole).2.length
        (fun cs => if (fitting 0 whole).2.isEmpty then integer negative (fitting 0 whole).1 cs
          else floating negative (fitting 0 whole).1 (fitting 0 whole).2.length cs) cs := by
  unfold fractionPart
  simp only
  split
  · simp at pointless
  · rfl
  · rfl
  · rename_i noPoint noLower noUpper
    rw [withExponent_alone]
    · exact fun same => (List.head?_eq_some_iff.mp same).elim noLower
    · exact fun same => (List.head?_eq_some_iff.mp same).elim noUpper

theorem fractionPart_append (ends : Ends more)
    (read : fractionPart negative whole cs = .ok (json, rest)) :
    fractionPart negative whole (cs ++ more) = .ok (json, rest ++ more) := by
  by_cases point : cs.head? = some '.'
  · obtain ⟨tail, rfl⟩ := List.head?_eq_some_iff.mp point
    rw [List.cons_append, fractionPart_point, ends.takeWhile_append, ends.dropWhile_append]
    rw [fractionPart_point] at read
    split_ifs at read ⊢
    exact withExponent_append ends (floating_append · more) read
  · rw [fractionPart_pointless point] at read
    rw [fractionPart_pointless (ends.head?_append_ne (·.2.1) point)]
    refine withExponent_append ends (fun read => ?_) read
    split_ifs at read ⊢
    · exact integer_append read more
    · exact floating_append read more

theorem number_zero (ends : ∀ c ∈ cs.head?, c.isDigit = false) :
    number negative ('0' :: cs) = fractionPart negative ['0'] cs := by
  cases cs with
  | nil => rfl
  | cons c cs => simp [number, ends c rfl]

theorem number_digit (positive : c ≠ '0') (digit : c.isDigit = true) :
    number negative (c :: cs) =
      fractionPart negative ((c :: cs).takeWhile Char.isDigit)
        ((c :: cs).dropWhile Char.isDigit) := by
  simp [number, digit]

theorem number_append (ends : Ends more) (read : number negative cs = .ok (json, rest)) :
    number negative (cs ++ more) = .ok (json, rest ++ more) := by
  cases cs with
  | nil => cases read
  | cons c tail =>
      by_cases zero : c = '0'
      · subst zero
        have stop : ∀ c ∈ tail.head?, c.isDigit = false := by
          intro c first
          obtain ⟨tail, rfl⟩ := List.head?_eq_some_iff.mp first
          by_contra digit
          simp [number, Bool.eq_true_of_not_eq_false digit] at read
        rw [number_zero stop] at read
        rw [List.cons_append, number_zero]
        · exact fractionPart_append ends read
        · cases tail with
          | nil => exact fun c first => (ends c first).1
          | cons => exact stop
      · have digit : c.isDigit = true := by
          by_contra other
          simp [number, other] at read
        rw [number_digit zero digit] at read
        rw [List.cons_append, number_digit zero digit, ← List.cons_append, ends.takeWhile_append,
          ends.dropWhile_append]
        exact fractionPart_append ends read

/-! ### What is left behind a number -/

theorem floating_eq_rest {digits : UInt64} {exponent : Int}
    (read : floating negative digits exponent cs = .ok (json, rest)) : rest = cs := by
  unfold floating at read
  split at read
  · cases read
    rfl
  · cases read

theorem integer_eq_rest {digits : UInt64} (read : integer negative digits cs = .ok (json, rest)) :
    rest = cs := by
  unfold integer at read
  split_ifs at read
  · cases read
    rfl
  · exact floating_eq_rest read
  · cases read
    rfl

theorem exponentDigits_suffix {digits : UInt64} {exponent : Nat → Int}
    (read : exponentDigits negative digits exponent cs = .ok (json, rest)) : rest <:+ cs := by
  cases cs with
  | nil => cases read
  | cons c tail =>
      rw [exponentDigits] at read
      split_ifs at read
      exact floating_eq_rest read ▸ List.dropWhile_suffix _

theorem exponentPart_suffix {digits : UInt64} {exponent : Int}
    (read : exponentPart negative digits exponent cs = .ok (json, rest)) : rest <:+ cs := by
  cases cs with
  | nil => cases read
  | cons c tail =>
      rw [exponentPart_cons] at read
      split_ifs at read
      · exact (exponentDigits_suffix read).trans (List.suffix_cons ..)
      · exact (exponentDigits_suffix read).trans (List.suffix_cons ..)
      · exact exponentDigits_suffix read

theorem withExponent_suffix {digits : UInt64} {exponent : Int}
    {alone : List Char → Reading (Json × List Char)}
    (frame : alone cs = .ok (json, rest) → rest <:+ cs)
    (read : withExponent negative digits exponent alone cs = .ok (json, rest)) : rest <:+ cs := by
  unfold withExponent at read
  split at read
  · exact (exponentPart_suffix read).trans (List.suffix_cons ..)
  · exact (exponentPart_suffix read).trans (List.suffix_cons ..)
  · exact frame read

theorem fractionPart_suffix (read : fractionPart negative whole cs = .ok (json, rest)) :
    rest <:+ cs := by
  by_cases point : cs.head? = some '.'
  · obtain ⟨tail, rfl⟩ := List.head?_eq_some_iff.mp point
    rw [fractionPart_point] at read
    split_ifs at read
    have left := withExponent_suffix (fun read => floating_eq_rest read ▸ List.suffix_rfl) read
    exact (left.trans (List.dropWhile_suffix _)).trans (List.suffix_cons ..)
  · rw [fractionPart_pointless point] at read
    refine withExponent_suffix (fun read => ?_) read
    split_ifs at read
    · exact integer_eq_rest read ▸ List.suffix_rfl
    · exact floating_eq_rest read ▸ List.suffix_rfl

theorem number_suffix (read : number negative cs = .ok (json, rest)) : rest <:+ cs := by
  unfold number at read
  split at read
  · cases read
  · split at read
    · split_ifs at read
      exact (fractionPart_suffix read).trans (List.suffix_cons ..)
    · exact (fractionPart_suffix read).trans (List.suffix_cons ..)
  · split_ifs at read
    exact (fractionPart_suffix read).trans (List.dropWhile_suffix _)

/-! ### Integers -/

theorem fitting_eq {word : UInt64} {digits : List Char}
    (fits : Nat.ofDigitChars 10 digits word.toNat < UInt64.size) :
    fitting word digits = (.ofNat (Nat.ofDigitChars 10 digits word.toNat), []) := by
  induction digits generalizing word with
  | nil => simp [fitting]
  | cons c digits ih =>
      rw [Nat.ofDigitChars_cons] at fits ⊢
      have next : 10 * word.toNat + digitValue c < UInt64.size := by
        rw [Nat.ofDigitChars_eq_ofDigitChars_zero] at fits
        have grows : 1 * (10 * word.toNat + digitValue c) ≤
            10 ^ digits.length * (10 * word.toNat + digitValue c) :=
          Nat.mul_le_mul_right _ (Nat.one_le_pow _ _ (by decide))
        unfold digitValue at grows ⊢
        omega
      have same := UInt64.toNat_ofNat_of_lt' next
      unfold digitValue at next same
      rw [fitting]
      simp only [digitValue, next, if_true]
      rw [ih (by rwa [same]), same]

theorem head_toDigits {n : Nat} (positive : 0 < n) : (Nat.toDigits 10 n).head? ≠ some '0' := by
  induction n using Nat.strong_induction_on with
  | h n ih =>
      by_cases small : n < 10
      · rw [Nat.toDigits_of_lt_base small]
        interval_cases n <;> decide
      · have shorter := ih (n / 10) (by omega) (by omega)
        obtain ⟨c, cs, cut⟩ :=
          List.exists_cons_of_ne_nil (Nat.toDigits_ne_nil (b := 10) (n := n / 10))
        rw [Nat.toDigits_of_base_le (by decide) (by omega), cut]
        rwa [cut] at shorter

theorem number_toDigits {n : Nat} (fits : n < UInt64.size) (negative : Bool) :
    number negative (Nat.toDigits 10 n) = integer negative (.ofNat n) [] := by
  cases n with
  | zero => rfl
  | succ n =>
      have digits : ∀ c ∈ Nat.toDigits 10 (n + 1), c.isDigit = true :=
        fun c mem => Nat.isDigit_of_mem_toDigits (by decide) (by decide) mem
      have value : Nat.ofDigitChars 10 (Nat.toDigits 10 (n + 1)) (0 : UInt64).toNat = n + 1 :=
        Nat.ofDigitChars_ten_toDigits
      have leading := head_toDigits (Nat.succ_pos n)
      have taken : fitting 0 (Nat.toDigits 10 (n + 1)) = (.ofNat (n + 1), []) := by
        rw [fitting_eq (by rwa [value]), value]
      have whole : (Nat.toDigits 10 (n + 1)).takeWhile Char.isDigit = Nat.toDigits 10 (n + 1) :=
        List.takeWhile_eq_self_iff.mpr digits
      have behind : (Nat.toDigits 10 (n + 1)).dropWhile Char.isDigit = [] :=
        List.dropWhile_eq_nil_iff.mpr digits
      obtain ⟨c, cs, cut⟩ := List.exists_cons_of_ne_nil (Nat.toDigits_ne_nil (b := 10) (n := n + 1))
      rw [cut] at digits leading whole behind taken ⊢
      rw [number_digit (by simpa using leading) (digits c List.mem_cons_self), whole, behind,
        fractionPart_pointless (by simp), withExponent_alone (by simp) (by simp), taken]
      rfl

theorem number_natural {n : Nat} (fits : n < UInt64.size) (ends : Ends rest) :
    number false (Nat.toDigits 10 n ++ rest) = .ok (int n, rest) := by
  have alone : number false (Nat.toDigits 10 n) = .ok (int n, []) := by
    rw [number_toDigits fits]
    simp [integer, Nat.mod_eq_of_lt fits]
  exact number_append ends alone

theorem number_negative {n : Nat} (positive : 0 < n) (fits : n ≤ Nat.pow 2 63) (ends : Ends rest) :
    number true (Nat.toDigits 10 n ++ rest) = .ok (int (-n), rest) := by
  have word : n < UInt64.size := Nat.lt_of_le_of_lt fits (by decide)
  have same : (UInt64.ofNat n).toNat = n := UInt64.toNat_ofNat_of_lt' word
  have above : 0 < UInt64.ofNat n := by
    rw [UInt64.lt_iff_toNat_lt, same]
    exact positive
  have alone : number true (Nat.toDigits 10 n) = .ok (int (-n), []) := by
    rw [number_toDigits word]
    simp [integer, same, above, fits]
  exact number_append ends alone

theorem toList_toString (n : Int) :
    (toString n).toList =
      if 0 ≤ n then Nat.toDigits 10 n.toNat else '-' :: Nat.toDigits 10 (-n).toNat := by
  rw [Int.toString_eq_repr, Int.repr_eq_if]
  split_ifs
  · rw [Nat.repr_eq_ofList_toDigits, String.toList_ofList]
  · simp [Nat.repr_eq_ofList_toDigits]

/-! ### Strings -/

theorem hexUnit?_control {n : Nat} (control : n < 0x20) :
    hexUnit? '0' '0' (Nat.digitChar (n / 16)) (Nat.digitChar (n % 16)) = some n := by
  revert n
  decide

theorem stringBody_control (done cs : List Char) (control : c.toNat < 0x20) :
    stringBody done
        ('\x5c' :: 'u' :: '0' :: '0' :: Nat.digitChar (c.toNat / 16) ::
          Nat.digitChar (c.toNat % 16) :: cs) =
      stringBody (c :: done) cs := by
  have trailing : isTrailing c.toNat = false := by
    simp [isTrailing]
    omega
  have leading : isLeading c.toNat = false := by
    simp [isLeading]
    omega
  rw [stringBody]
  simp [hexUnit?_control control, trailing, leading]

theorem stringBody_escapeChar (c : Char) (done cs : List Char) :
    stringBody done (escapeChar c ++ cs) = stringBody (c :: done) cs := by
  unfold escapeChar
  split_ifs with mark backslash back feed line home tab control
  · subst mark
    simp [stringBody, shortEscape?]
  · subst backslash
    simp [stringBody, shortEscape?]
  · subst back
    simp [stringBody, shortEscape?]
  · subst feed
    simp [stringBody, shortEscape?]
  · subst line
    simp [stringBody, shortEscape?]
  · subst home
    simp [stringBody, shortEscape?]
  · subst tab
    simp [stringBody, shortEscape?]
  · exact stringBody_control done cs control
  · simp [stringBody, backslash, control]

theorem stringBody_flatMap (text done rest : List Char) :
    stringBody done (text.flatMap escapeChar ++ '\x22' :: rest) =
      .ok (String.ofList (done.reverse ++ text), rest) := by
  induction text generalizing done with
  | nil => simp [stringBody]
  | cons c text ih => simp [stringBody_escapeChar, ih]

theorem toList_stringText (s : String) :
    (stringText s).toList = '\x22' :: (s.toList.flatMap escapeChar ++ ['\x22']) := by
  simp [stringText]

end Resumable.Json
