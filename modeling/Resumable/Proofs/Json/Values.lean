import Resumable.Proofs.Json.Scalars

/-! Values read back from their text, whatever blanks it is laid out with. -/

namespace Resumable.Json

variable {c : Char} {cs rest behind : List Char} {json first : Json} {others : List Json}
  {levels rounds : Nat}

/-! ### Scalars -/

theorem ne_of_isDigit {d : Char} (digit : c.isDigit = true) (none : d.isDigit = false) : c ≠ d := by
  rintro rfl
  rw [digit] at none
  cases none

theorem isBlank_of_isDigit (digit : c.isDigit = true) : isBlank c = false := by
  have other : ∀ d, d.isDigit = false → c ≠ d := fun _ => ne_of_isDigit digit
  simp [isBlank, other ' ' (by decide), other '\n' (by decide), other '\t' (by decide),
    other '\r' (by decide)]

theorem value_digit (digit : c.isDigit = true) :
    value levels (c :: cs) = number false (c :: cs) := by
  have other : ∀ d, d.isDigit = false → c ≠ d := fun _ => ne_of_isDigit digit
  rw [value, skipBlank_cons (isBlank_of_isDigit digit)]
  split <;> simp_all

theorem value_minus (levels : Nat) (cs : List Char) :
    value levels ('-' :: cs) = number true cs := by
  rw [value]
  rfl

theorem value_stringText (levels : Nat) (s : String) (rest : List Char) :
    value levels ((stringText s).toList ++ rest) = .ok (str s, rest) := by
  have body := stringBody_flatMap s.toList [] rest
  rw [toList_stringText, value, List.cons_append, skipBlank_cons (by decide)]
  simp only [List.append_assoc, List.singleton_append, body]
  simp

theorem value_int {n : Int} (wordSized : WordSized n) (ends : Ends rest) :
    value levels ((toString n).toList ++ rest) = .ok (int n, rest) := by
  rw [toList_toString]
  split_ifs with natural
  · obtain ⟨c, cs, cut⟩ :=
      List.exists_cons_of_ne_nil (Nat.toDigits_ne_nil (b := 10) (n := n.toNat))
    have digit : c.isDigit = true :=
      Nat.isDigit_of_mem_toDigits (by decide) (by decide) (cut ▸ List.mem_cons_self)
    have fits : n.toNat < UInt64.size := by
      have := wordSized.2
      omega
    have read := number_natural fits ends
    rw [cut, List.cons_append] at read ⊢
    rw [value_digit digit, read, Int.toNat_of_nonneg natural]
  · have least := wordSized.1
    have fits : (-n).toNat ≤ Nat.pow 2 63 := by omega
    rw [List.cons_append, value_minus, number_negative (by omega) fits ends]
    congr
    omega

theorem eq_of_word {expected : List Char} (read : word first expected cs = .ok (json, rest)) :
    json = first := by
  induction expected generalizing cs with
  | nil =>
      cases read
      rfl
  | cons c expected ih =>
      cases cs with
      | nil => cases read
      | cons d cs =>
          rw [word] at read
          split_ifs at read
          exact ih read

theorem value_of_float {d : Double} (read : value levels cs = .ok (float d, rest)) :
    ∃ negative digits, number negative digits = .ok (float d, rest) ∧ digits <:+ skipBlank cs ∧
      ∀ levels more, value levels (skipBlank cs ++ more) = number negative (digits ++ more) := by
  rw [value] at read
  split at read
  · cases read
  · cases eq_of_word read
  · cases eq_of_word read
  · cases eq_of_word read
  · rename_i digits start
    rw [start]
    exact ⟨true, digits, read, List.suffix_cons .., fun levels more => value_minus levels _⟩
  · simp only [bind, Except.bind] at read
    split at read <;> cases read
  · split at read
    · cases read
    · simp only [bind, Except.bind, pure, Except.pure] at read
      split at read
      · cases read
      · split at read <;> cases read
  · split at read
    · cases read
    · simp only [bind, Except.bind, pure, Except.pure] at read
      split at read
      · cases read
      · split at read <;> cases read
  · rename_i c digits _ _ _ _ _ _ _ start
    split_ifs at read with digit
    rw [start]
    exact ⟨false, c :: digits, read, List.suffix_rfl, fun levels more => value_digit digit⟩

/-! ### Doubles -/

theorem skipBlank_solid (solid : ∀ c ∈ cs, isBlank c = false) : skipBlank cs = cs := by
  cases cs with
  | nil => rfl
  | cons c cs => exact skipBlank_cons (solid c List.mem_cons_self)

def Solid (s : String) : Prop := ∀ c ∈ s.toList, isBlank c = false

-- Not by the instance for a quantifier, which may go through all characters there are.
instance (s : String) : Decidable (Solid s) :=
  decidable_of_iff (s.toList.all fun c => !isBlank c) (by simp [Solid])

theorem Solid.append {s t : String} (left : Solid s) (right : Solid t) : Solid (s ++ t) := by
  intro c member
  rw [String.toList_append] at member
  exact (List.mem_append.mp member).elim (left c) (right c)

theorem solid_ofList (digits : ∀ c ∈ cs, c.isDigit = true) : Solid (String.ofList cs) := by
  intro c member
  rw [String.toList_ofList] at member
  exact isBlank_of_isDigit (digits c member)

theorem solid_toString (n : Int) : Solid (toString n) := by
  have digits : ∀ n, ∀ c ∈ Nat.toDigits 10 n, isBlank c = false := fun n c member =>
    isBlank_of_isDigit (Nat.isDigit_of_mem_toDigits (by decide) (by decide) member)
  unfold Solid
  rw [toList_toString]
  split_ifs
  · exact digits _
  · exact List.forall_mem_cons.mpr ⟨rfl, digits _⟩

theorem solid_decimal (d : Decimal) : Solid (d.render Double.jsonLayout) := by
  have digit : ∀ c ∈ Nat.toDigits 10 d.digits, c.isDigit = true :=
    fun c member => Nat.isDigit_of_mem_toDigits (by decide) (by decide) member
  have digits := solid_ofList digit
  have front : ∀ count, Solid (String.ofList ((Nat.toDigits 10 d.digits).take count)) :=
    fun _ => solid_ofList fun c member => digit c (List.mem_of_mem_take member)
  have back : ∀ count, Solid (String.ofList ((Nat.toDigits 10 d.digits).drop count)) :=
    fun _ => solid_ofList fun c member => digit c (List.mem_of_mem_drop member)
  have zeros : ∀ count, Solid (Decimal.zeros count) := fun count => solid_ofList fun c member => by
    rw [List.eq_of_mem_replicate member]
    rfl
  have point : Solid "." := by decide
  rw [Decimal.render]
  split_ifs
  · exact ((by decide : Solid "0.").append (zeros _)).append digits
  · exact (digits.append (zeros _)).append (by decide)
  · exact ((front _).append point).append (back _)
  all_goals
    refine Solid.append (Solid.append (Solid.append (Solid.append (front 1) ?_) ?_) ?_)
      (solid_toString _)
  all_goals first | decide | exact point.append (back 1)

theorem solid_floatText (d : Double) : Solid (floatText d) := by
  have sign : Solid (if d.negative then "-" else "") := by
    cases d.negative <;> decide
  unfold floatText Double.render
  cases d.isFinite
  · exact (by decide : Solid "null")
  cases d.isNaN
  · cases d.isZero
    · exact sign.append (solid_decimal _)
    · exact (sign.append (by decide : Solid "0")).append (by decide)
  · exact (by decide : Solid "NaN")

theorem standard_read {json : Json} {text : String}
    (read : value fileLevels text.toList = .ok (json, [])) :
    Texts.standard.read text = .ok (json, none) := by
  simp only [Texts.standard, read]
  rfl

theorem value_float {d : Double} (ends : Ends rest)
    (back : value 0 (floatText d).toList = .ok (float d, [])) :
    value levels ((floatText d).toList ++ rest) = .ok (float d, rest) := by
  obtain ⟨negative, digits, read, -, only⟩ := value_of_float back
  rw [skipBlank_solid (solid_floatText d)] at only
  rw [only]
  exact number_append ends read

theorem rereads_standard_iff {d : Double} :
    Texts.standard.Rereads d ↔ value 0 (floatText d).toList = .ok (float d, []) := by
  constructor
  · intro rereads
    have whole := rereads (floatText d) (by simp [Texts.written, Texts.standard, compact])
    simp only [Texts.standard] at whole
    split at whole
    · cases whole
    · rename_i json rest back
      split at whole
      · rename_i blank
        obtain rfl : json = float d := congrArg Prod.fst (Except.ok.inj whole)
        obtain ⟨negative, digits, read, inside, only⟩ := value_of_float back
        rw [skipBlank_solid (solid_floatText d)] at inside only
        have solid : ∀ c ∈ rest, isBlank c = false := fun c member =>
          solid_floatText d c (inside.subset ((number_suffix read).subset member))
        rw [skipBlank_solid solid] at blank
        subst blank
        have again := only 0 []
        rw [List.append_nil, List.append_nil, read] at again
        exact again
      · cases whole
  · intro back text written
    obtain rfl : text = floatText d := by
      simpa [Texts.written, Texts.standard, compact, pretty] using written
    have read : value fileLevels ((floatText d).toList ++ []) = .ok (float d, []) :=
      value_float .nil back
    rw [List.append_nil] at read
    exact standard_read read

def reread? (d : Double) : Option Double :=
  match value 0 (floatText d).toList with
  | .ok (float e, []) => some e
  | _ => none

theorem reread?_eq_some_iff {d : Double} : reread? d = some d ↔ Texts.standard.Rereads d := by
  rw [rereads_standard_iff]
  unfold reread?
  constructor
  · intro same
    split at same
    · cases same
      assumption
    · cases same
  · intro back
    rw [back]

instance (d : Double) : Decidable (Texts.standard.Rereads d) :=
  decidable_of_iff _ reread?_eq_some_iff

/-- Reading rounds more than once, so that not all finite doubles are read back. -/
example : Texts.standard.Rereads (.ofDecimal true 15 (-8)) ∧
    ¬Texts.standard.Rereads (.ofDecimal false 3 30) := by
  decide +kernel

/-! ### Lists and objects -/

theorem items_last {item : List Char → Reading (Json × List Char)}
    (read : item cs = .ok (first, behind)) (closed : skipBlank behind = ']' :: rest) :
    items item (rounds + 1) cs = .ok ([first], rest) := by
  rw [items, read]
  simp only [bind, Except.bind, closed]
  rfl

theorem items_more {item : List Char → Reading (Json × List Char)} {next : List Char}
    (read : item cs = .ok (first, behind)) (comma : skipBlank behind = ',' :: next)
    (goesOn : ∀ rest, skipBlank next ≠ ']' :: rest)
    (readOthers : items item rounds (skipBlank next) = .ok (others, rest)) :
    items item (rounds + 1) cs = .ok (first :: others, rest) := by
  rw [items, read]
  simp only [bind, Except.bind, comma, readOthers]
  rfl

theorem value_list {list : List Json} (goesOn : ∀ rest, skipBlank cs ≠ ']' :: rest)
    (read : items (value levels) ((skipBlank cs).length + 1) (skipBlank cs) = .ok (list, rest)) :
    value (levels + 1) ('[' :: cs) = .ok (arr list, rest) := by
  rw [value, skipBlank_cons (by decide)]
  simp only [bind, Except.bind, read]
  rfl

theorem field_key {value : List Char → Reading (Json × List Char)} {key : String}
    (read : value cs = .ok (json, rest)) :
    field value ((stringText key).toList ++ ':' :: cs) = .ok ((key, json), rest) := by
  have body := stringBody_flatMap key.toList [] (':' :: cs)
  rw [toList_stringText, List.cons_append, field]
  simp only [List.append_assoc, List.singleton_append, body, bind, Except.bind,
    skipBlank_cons (show isBlank ':' = false by decide), read]
  simp [pure, Except.pure]

variable {entry : String × Json} {entries : List (String × Json)}

theorem fields_last {value : List Char → Reading (Json × List Char)}
    (read : field value cs = .ok (entry, behind)) (closed : skipBlank behind = '\x7d' :: rest) :
    fields value (rounds + 1) cs = .ok ([entry], rest) := by
  rw [fields, read]
  simp only [bind, Except.bind, closed]
  rfl

theorem fields_more {value : List Char → Reading (Json × List Char)} {next : List Char}
    (read : field value cs = .ok (entry, behind)) (comma : skipBlank behind = ',' :: next)
    (readOthers : fields value rounds (skipBlank next) = .ok (entries, rest)) :
    fields value (rounds + 1) cs = .ok (entry :: entries, rest) := by
  rw [fields, read]
  simp only [bind, Except.bind, comma, readOthers]
  rfl

theorem value_object (goesOn : ∀ rest, skipBlank cs ≠ '\x7d' :: rest)
    (read : fields (value levels) ((skipBlank cs).length + 1) (skipBlank cs) =
      .ok (entries, rest)) :
    value (levels + 1) ('\x7b' :: cs) = .ok (obj entries, rest) := by
  rw [value, skipBlank_cons (by decide)]
  simp only [bind, Except.bind, read]
  rfl

end Resumable.Json
