import Resumable.Proofs.Json.Values

/-! Values are read back from their text in every layout; the printers use two of them. -/

namespace Resumable.Json

/-- Where text has blanks: before each item or field and before what closes a list or an object, on
the level where that stands, and behind each colon. -/
structure Layout where
  gap : Nat → List Char
  space : List Char
  gap_blank : ∀ level, ∀ c ∈ gap level, isBlank c = true
  space_blank : ∀ c ∈ space, isBlank c = true

mutual

/-- Text of a value on a level, with what stands behind it. -/
def laid (layout : Layout) (level : Nat) (behind : List Char) : Json → List Char
  | null => "null".toList ++ behind
  | bool value => (if value then "true" else "false").toList ++ behind
  | int value => (toString value).toList ++ behind
  | float value => (floatText value).toList ++ behind
  | str value => (stringText value).toList ++ behind
  | arr [] => '[' :: ']' :: behind
  | arr (item :: rest) =>
    '[' :: (layout.gap (level + 1) ++ item.laid layout (level + 1)
      (laidItems layout (level + 1) (layout.gap level ++ ']' :: behind) rest))
  | obj [] => '\x7b' :: '\x7d' :: behind
  | obj ((key, value) :: rest) =>
    '\x7b' :: (layout.gap (level + 1) ++ ((stringText key).toList ++ ':' :: (layout.space ++
      value.laid layout (level + 1)
        (laidFields layout (level + 1) (layout.gap level ++ '\x7d' :: behind) rest))))

def laidItems (layout : Layout) (level : Nat) (behind : List Char) : List Json → List Char
  | [] => behind
  | item :: rest =>
    ',' :: (layout.gap level ++ item.laid layout level (laidItems layout level behind rest))

def laidFields (layout : Layout) (level : Nat) (behind : List Char) :
    List (String × Json) → List Char
  | [] => behind
  | (key, value) :: rest =>
    ',' :: (layout.gap level ++ ((stringText key).toList ++ ':' :: (layout.space ++
      value.laid layout level (laidFields layout level behind rest))))

end

/-! ### The layouts of the printers -/

namespace Layout

def oneLine : Layout where
  gap _ := []
  space := []
  gap_blank := by simp
  space_blank := by simp

@[simp] theorem oneLine_gap (level : Nat) : oneLine.gap level = [] := rfl

@[simp] theorem oneLine_space : oneLine.space = [] := rfl

theorem toList_indent (level : Nat) :
    (indent level).toList = (List.replicate level [' ', ' ']).flatten := by
  unfold indent
  rw [String.toList_join, List.flatMap_replicate]
  rfl

def indented : Layout where
  gap level := '\n' :: (indent level).toList
  space := [' ']
  gap_blank := by
    intro level c member
    rw [toList_indent] at member
    rcases List.mem_cons.mp member with rfl | blank
    · rfl
    · simp at blank
      rw [blank.2]
      rfl
  space_blank := by simp [isBlank]

@[simp] theorem indented_gap (level : Nat) :
    indented.gap level = '\n' :: (indent level).toList := rfl

@[simp] theorem indented_space : indented.space = [' '] := rfl

end Layout

mutual

theorem compact_laid (level : Nat) (behind : List Char) (json : Json) :
    json.compact.toList ++ behind = json.laid .oneLine level behind := by
  match json with
  | null | bool _ | int _ | float _ | str _ => simp [compact, laid]
  | arr [] | obj [] => simp [compact, laid]
  | arr (item :: rest) => simp [compact, laid, ← compact_laid, ← compactItems_laid]
  | obj ((key, value) :: rest) => simp [compact, laid, ← compact_laid, ← compactFields_laid]

theorem compactItems_laid (level : Nat) (behind : List Char) (items : List Json) :
    (compactItems items).toList ++ behind = laidItems .oneLine level behind items := by
  match items with
  | [] => simp [compactItems, laidItems]
  | item :: rest => simp [compactItems, laidItems, ← compact_laid, ← compactItems_laid]

theorem compactFields_laid (level : Nat) (behind : List Char) (fields : List (String × Json)) :
    (compactFields fields).toList ++ behind = laidFields .oneLine level behind fields := by
  match fields with
  | [] => simp [compactFields, laidFields]
  | (key, value) :: rest =>
      simp [compactFields, laidFields, ← compact_laid, ← compactFields_laid]

end

mutual

theorem pretty_laid (level : Nat) (behind : List Char) (json : Json) :
    (json.pretty level).toList ++ behind = json.laid .indented level behind := by
  match json with
  | null | bool _ | int _ | float _ | str _ => simp [pretty, laid]
  | arr [] | obj [] => simp [pretty, laid]
  | arr (item :: rest) => simp [pretty, laid, ← pretty_laid, ← prettyItems_laid]
  | obj ((key, value) :: rest) => simp [pretty, laid, ← pretty_laid, ← prettyFields_laid]

theorem prettyItems_laid (level : Nat) (behind : List Char) (items : List Json) :
    (prettyItems level items).toList ++ behind = laidItems .indented level behind items := by
  match items with
  | [] => simp [prettyItems, laidItems]
  | item :: rest => simp [prettyItems, laidItems, ← pretty_laid, ← prettyItems_laid]

theorem prettyFields_laid (level : Nat) (behind : List Char) (fields : List (String × Json)) :
    (prettyFields level fields).toList ++ behind = laidFields .indented level behind fields := by
  match fields with
  | [] => simp [prettyFields, laidFields]
  | (key, value) :: rest =>
      simp [prettyFields, laidFields, ← pretty_laid, ← prettyFields_laid]

end

/-! ### Reading -/

variable {layout : Layout} {level levels : Nat} {behind : List Char}

theorem Ends.close {c : Char} (layout : Layout) (level : Nat) (ends : Ends (c :: behind)) :
    Ends (layout.gap level ++ c :: behind) := by
  cases gap : layout.gap level with
  | nil => exact ends
  | cons first rest =>
      have blank := layout.gap_blank level first (by simp [gap])
      simp only [isBlank, Bool.or_eq_true, decide_eq_true_eq] at blank
      rcases blank with ((rfl | rfl) | rfl) | rfl <;>
        exact .cons rfl (by decide) (by decide) (by decide)

mutual

theorem laid_append (layout : Layout) (level : Nat) (behind more : List Char) (json : Json) :
    json.laid layout level (behind ++ more) = json.laid layout level behind ++ more := by
  match json with
  | null | bool _ | int _ | float _ | str _ => simp only [laid, List.append_assoc]
  | arr [] | obj [] => rfl
  | arr (item :: rest) =>
      simp only [laid, ← List.cons_append, ← List.append_assoc (layout.gap level)]
      rw [laidItems_append, laid_append]
      simp only [List.cons_append, List.append_assoc]
  | obj ((key, value) :: rest) =>
      simp only [laid, ← List.cons_append, ← List.append_assoc (layout.gap level)]
      rw [laidFields_append, laid_append]
      simp only [List.cons_append, List.append_assoc]

theorem laidItems_append (layout : Layout) (level : Nat) (behind more : List Char)
    (items : List Json) :
    laidItems layout level (behind ++ more) items =
      laidItems layout level behind items ++ more := by
  match items with
  | [] => rfl
  | item :: rest =>
      simp only [laidItems, laidItems_append, laid_append, List.cons_append, List.append_assoc]

theorem laidFields_append (layout : Layout) (level : Nat) (behind more : List Char)
    (fields : List (String × Json)) :
    laidFields layout level (behind ++ more) fields =
      laidFields layout level behind fields ++ more := by
  match fields with
  | [] => rfl
  | (key, value) :: rest =>
      simp only [laidFields, laidFields_append, laid_append, List.cons_append, List.append_assoc]

end

theorem length_le_laid (layout : Layout) (level : Nat) (behind : List Char) (json : Json) :
    behind.length ≤ (json.laid layout level behind).length := by
  have whole := laid_append layout level [] behind json
  rw [List.nil_append] at whole
  simp [whole]

theorem length_laidItems (layout : Layout) (level : Nat) (behind : List Char)
    (items : List Json) :
    items.length + behind.length ≤ (laidItems layout level behind items).length := by
  induction items with
  | nil => simp [laidItems]
  | cons item items ih =>
      have := length_le_laid layout level (laidItems layout level behind items) item
      simp only [laidItems, List.length_cons, List.length_append]
      omega

theorem length_laidFields (layout : Layout) (level : Nat) (behind : List Char)
    (fields : List (String × Json)) :
    fields.length + behind.length ≤ (laidFields layout level behind fields).length := by
  induction fields with
  | nil => simp [laidFields]
  | cons field fields ih =>
      have := length_le_laid layout level (laidFields layout level behind fields) field.2
      simp only [laidFields, List.length_cons, List.length_append]
      omega

/-! ### Reading lists and objects -/

/-- Whether a value is read from its text, whatever stands behind it. -/
def Laid (layout : Layout) (level levels : Nat) (json : Json) : Prop :=
  ∀ behind, Ends behind → value levels (json.laid layout level behind) = .ok (json, behind)

variable {outer rounds : Nat} {key : String} {first : Json} {others : List Json}
  {entries : List (String × Json)}

theorem Laid.length_lt (laid : first.Laid layout level levels) (behind : List Char) :
    behind.length < (skipBlank (first.laid layout level behind)).length := by
  have solid := (value_starts (laid [] .nil)).1
  have whole := laid_append layout level [] behind first
  rw [List.nil_append] at whole
  rw [whole, skipBlank_append solid, List.length_append]
  have := List.length_pos_iff.mpr solid
  omega

theorem Ends.laidItems (layout : Layout) (outer level : Nat) (behind : List Char)
    (items : List Json) :
    Ends (laidItems layout level (layout.gap outer ++ ']' :: behind) items) := by
  cases items with
  | nil => exact .close layout outer (.cons rfl (by decide) (by decide) (by decide))
  | cons => exact .cons rfl (by decide) (by decide) (by decide)

theorem Ends.laidFields (layout : Layout) (outer level : Nat) (behind : List Char)
    (fields : List (String × Json)) :
    Ends (laidFields layout level (layout.gap outer ++ '\x7d' :: behind) fields) := by
  cases fields with
  | nil => exact .close layout outer (.cons rfl (by decide) (by decide) (by decide))
  | cons => exact .cons rfl (by decide) (by decide) (by decide)

theorem items_laid (each : ∀ item ∈ first :: others, Laid layout level levels item)
    (short : others.length < rounds) :
    items (value levels) rounds (skipBlank (first.laid layout level
        (laidItems layout level (layout.gap outer ++ ']' :: behind) others))) =
      .ok (first :: others, behind) := by
  induction others generalizing first rounds with
  | nil =>
      obtain ⟨rounds, rfl⟩ := Nat.exists_eq_add_one_of_ne_zero (Nat.ne_zero_of_lt short)
      have read := each first List.mem_cons_self _ (.laidItems layout outer level behind [])
      rw [← value_skipBlank] at read
      refine items_last read ?_
      rw [laidItems, skipBlank_blanks (layout.gap_blank outer), skipBlank_cons (by decide)]
  | cons second others ih =>
      obtain ⟨rounds, rfl⟩ := Nat.exists_eq_add_one_of_ne_zero (Nat.ne_zero_of_lt short)
      have read := each first List.mem_cons_self _
        (.laidItems layout outer level behind (second :: others))
      have readSecond := each second (by simp) _ (.laidItems layout outer level behind others)
      rw [← value_skipBlank] at read
      rw [← value_blanks (layout.gap_blank level)] at readSecond
      refine items_more read (skipBlank_cons (by decide)) (value_starts readSecond).2 ?_
      rw [skipBlank_blanks (layout.gap_blank level)]
      exact ih (fun item member => each item (List.mem_cons_of_mem _ member))
        (Nat.lt_of_succ_lt_succ short)

theorem Laid.list (each : ∀ item ∈ first :: others, Laid layout (level + 1) levels item) :
    Laid layout level (levels + 1) (arr (first :: others)) := by
  intro behind _
  have read := each first List.mem_cons_self _ (.laidItems layout level (level + 1) behind others)
  have longer := (each first List.mem_cons_self).length_lt
    (laidItems layout (level + 1) (layout.gap level ++ ']' :: behind) others)
  have enough := length_laidItems layout (level + 1) (layout.gap level ++ ']' :: behind) others
  rw [← value_blanks (layout.gap_blank (level + 1))] at read
  refine value_list (value_starts read).2 ?_
  rw [skipBlank_blanks (layout.gap_blank (level + 1))]
  exact items_laid each (by omega)

theorem field_laid (laid : first.Laid layout level levels) (ends : Ends behind) :
    field (value levels) ((stringText key).toList ++ ':' :: (layout.space ++
        first.laid layout level behind)) = .ok ((key, first), behind) := by
  refine field_key ?_
  rw [value_blanks layout.space_blank]
  exact laid behind ends

theorem skipBlank_stringText (text : String) (cs : List Char) :
    skipBlank ((stringText text).toList ++ cs) = (stringText text).toList ++ cs := by
  rw [toList_stringText, List.cons_append, skipBlank_cons (by decide)]

theorem fields_laid
    (each : ∀ field ∈ (key, first) :: entries, Laid layout level levels field.2)
    (short : entries.length < rounds) :
    fields (value levels) rounds ((stringText key).toList ++ ':' :: (layout.space ++
        first.laid layout level
          (laidFields layout level (layout.gap outer ++ '\x7d' :: behind) entries))) =
      .ok ((key, first) :: entries, behind) := by
  induction entries generalizing key first rounds with
  | nil =>
      obtain ⟨rounds, rfl⟩ := Nat.exists_eq_add_one_of_ne_zero (Nat.ne_zero_of_lt short)
      have laid := each (key, first) List.mem_cons_self
      refine fields_last (field_laid laid (.laidFields layout outer level behind [])) ?_
      rw [laidFields, skipBlank_blanks (layout.gap_blank outer), skipBlank_cons (by decide)]
  | cons second entries ih =>
      obtain ⟨rounds, rfl⟩ := Nat.exists_eq_add_one_of_ne_zero (Nat.ne_zero_of_lt short)
      have laid := each (key, first) List.mem_cons_self
      refine fields_more
        (field_laid laid (.laidFields layout outer level behind (second :: entries)))
        (skipBlank_cons (by decide)) ?_
      rw [skipBlank_blanks (layout.gap_blank level), skipBlank_stringText]
      exact ih (fun field member => each field (List.mem_cons_of_mem _ member))
        (Nat.lt_of_succ_lt_succ short)

theorem Laid.object
    (each : ∀ field ∈ (key, first) :: entries, Laid layout (level + 1) levels field.2) :
    Laid layout level (levels + 1) (obj ((key, first) :: entries)) := by
  intro behind _
  have longer := length_le_laid layout (level + 1)
    (laidFields layout (level + 1) (layout.gap level ++ '\x7d' :: behind) entries) first
  have enough := length_laidFields layout (level + 1) (layout.gap level ++ '\x7d' :: behind) entries
  rw [laid]
  refine value_object ?_ ?_
  · intro rest
    rw [skipBlank_blanks (layout.gap_blank (level + 1)), skipBlank_stringText, toList_stringText]
    simp
  · rw [skipBlank_blanks (layout.gap_blank (level + 1)), skipBlank_stringText]
    refine fields_laid each ?_
    simp only [List.length_append, List.length_cons]
    omega

mutual

/-- A value is read back from its text in any layout, where its lists and objects aren't nested
deeper than the reader goes. -/
theorem laid_of_legible (layout : Layout) (level : Nat) {levels : Nat} (json : Json)
    (legible : json.Legible .standard) (nested : json.depth ≤ levels) :
    json.Laid layout level levels := by
  match json, levels with
  | null, levels =>
      intro behind _
      simp [laid, value, skipBlank_cons (show isBlank 'n' = false by decide), word]
  | bool true, levels =>
      intro behind _
      simp [laid, value, skipBlank_cons (show isBlank 't' = false by decide), word]
  | bool false, levels =>
      intro behind _
      simp [laid, value, skipBlank_cons (show isBlank 'f' = false by decide), word]
  | int value, levels => exact fun behind ends => value_int legible ends
  | float value, levels =>
      exact fun behind ends => value_float ends (rereads_standard_iff.mp legible)
  | str value, levels => exact fun behind _ => value_stringText levels value behind
  | arr [], levels + 1 =>
      intro behind _
      rw [laid, value]
      rfl
  | arr (first :: others), levels + 1 =>
      have shallow : depthOfAll (first :: others) ≤ levels := by simpa [depth] using nested
      exact .list (itemsLaid_of_legible layout (level + 1) (first :: others) legible shallow)
  | obj [], levels + 1 =>
      intro behind _
      rw [laid, value]
      rfl
  | obj ((key, value) :: others), levels + 1 =>
      have shallow : depthOfFields ((key, value) :: others) ≤ levels := by
        simpa [depth] using nested
      exact .object (fieldsLaid_of_legible layout (level + 1) ((key, value) :: others) legible
        shallow)

theorem itemsLaid_of_legible (layout : Layout) (level : Nat) {levels : Nat} (items : List Json)
    (legible : LegibleItems .standard items) (nested : depthOfAll items ≤ levels) :
    ∀ item ∈ items, item.Laid layout level levels := by
  match items with
  | [] => simp
  | item :: rest =>
      rw [depthOfAll, Nat.max_le] at nested
      exact List.forall_mem_cons.mpr ⟨laid_of_legible layout level item legible.1 nested.1,
        itemsLaid_of_legible layout level rest legible.2 nested.2⟩

theorem fieldsLaid_of_legible (layout : Layout) (level : Nat) {levels : Nat}
    (fields : List (String × Json)) (legible : LegibleFields .standard fields)
    (nested : depthOfFields fields ≤ levels) :
    ∀ field ∈ fields, field.2.Laid layout level levels := by
  match fields with
  | [] => simp
  | (key, value) :: rest =>
      rw [depthOfFields, Nat.max_le] at nested
      exact List.forall_mem_cons.mpr ⟨laid_of_legible layout level value legible.1 nested.1,
        fieldsLaid_of_legible layout level rest legible.2 nested.2⟩

end

/-- The texts of the program are those of the two layouts. -/
theorem Texts.standard_lawful : Texts.standard.Lawful where
  reads_back := by
    intro json legible shallow text written
    have compact := compact_laid 0 [] json
    have pretty := pretty_laid 0 [] json
    rw [List.append_nil] at compact pretty
    have read : value fileLevels text.toList = .ok (json, []) := by
      rcases List.mem_pair.mp written with rfl | rfl
      · exact compact ▸ laid_of_legible .oneLine 0 json legible shallow [] .nil
      · exact pretty ▸ laid_of_legible .indented 0 json legible shallow [] .nil
    exact standard_read read

end Resumable.Json
