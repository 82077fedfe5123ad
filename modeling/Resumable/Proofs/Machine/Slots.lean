import Resumable.Proofs.Machine.Failed

/-! Slots lose nothing: a value of a variable's type can always be stored in the variable's slot, is
read back as it was, and no other slot notices. -/

namespace Resumable

namespace Value

theorem encode_decode {encoding : Encoding} {word : Int64} {value : Value}
    (exact : encoding ∈ [.intWord, .longWord, .charWord, .doubleBits])
    (read : decode encoding word = .ok value) : value.encode encoding = .ok word := by
  cases encoding with
  | reference | boolWord | unitWord => simp at exact
  | intWord | longWord =>
      cases read
      rfl
  | doubleBits =>
      cases read
      exact congrArg Except.ok word.toInt64_toUInt64
  | charWord =>
      unfold decode at read
      dsimp only at read
      split at read
      · rename_i valid
        obtain ⟨positive, scalar⟩ := Bool.and_eq_true_iff.mp valid
        have natural : (word.toInt.toNat : Int) = word.toInt :=
          Int.toNat_of_nonneg (of_decide_eq_true positive)
        have code : (Char.ofNat word.toInt.toNat).toNat = word.toInt.toNat :=
          (Char.toNat_ofNat _).trans (if_pos (of_decide_eq_true scalar))
        cases read
        calc encode .charWord (.char (Char.ofNat word.toInt.toNat))
          _ = .ok (Int64.ofNat (Char.ofNat word.toInt.toNat).toNat) := rfl
          _ = .ok (Int64.ofInt word.toInt) := by rw [code, ← Int64.ofInt_eq_ofNat, natural]
          _ = .ok word := by rw [Int64.ofInt_toInt]
      · cases read

theorem encode_ok_iff {encoding : Encoding} (word : encoding.stack = .value) (value : Value) :
    (∃ packed, value.encode encoding = .ok packed) ↔
      ∃ type : DataType, type.encoding = encoding ∧ value.hasType type = true := by
  constructor
  · rintro ⟨packed, done⟩
    unfold encode at done
    split at done
    · exact ⟨.unit, rfl, rfl⟩
    · exact ⟨.bool, rfl, rfl⟩
    · exact ⟨.int, rfl, rfl⟩
    · exact ⟨.long, rfl, rfl⟩
    · exact ⟨.char, rfl, rfl⟩
    · exact ⟨.double, rfl, rfl⟩
    · cases done
  · rintro ⟨type, rfl, fits⟩
    exact encode_of_hasType fits word

end Value

namespace Frame

variable {frame after : Frame} {carried : Carried}

theorem Holds.sameAt (holds : frame.Holds carried) (same : frame.SameAt carried.slot after) :
    after.Holds carried := by
  rw [SameAt] at same
  rw [Holds] at holds ⊢
  split at holds
  · obtain ⟨word, packed, there⟩ := holds
    rename_i stack
    rw [stack] at same
    exact ⟨word, packed, same.trans there⟩
  · rename_i stack
    rw [stack] at same
    exact same.trans holds

theorem save_of_hasType (frame : Frame) {type : DataType}
    (encoded : carried.encoding = type.encoding) (fits : carried.value.hasType type = true)
    (placed : carried.slot.stack = carried.encoding.stack) :
    ∃ after, frame.save carried = .ok after := by
  rw [save]
  split
  · rename_i stack
    have word : type.encoding.stack = .value := by rw [← encoded, ← placed, stack]
    obtain ⟨packed, done⟩ := Value.encode_of_hasType fits word
    rw [encoded, done]
    exact ⟨_, rfl⟩
  · exact ⟨_, rfl⟩

end Frame

/-- Storing a value of a type in a slot that serves the type, and loading it as long as the slot is
left alone. The encodings pack just the values of the types they serve, and those of whole words
are one to one. -/
theorem Encoding.lossless (slots : SlotTable) :
    (∀ (type : DataType) (value : Value) (slot : Slot) (name : String) (extent : Extent)
      (activation : Activation), value.hasType type = true → slot.stack = type.encoding.stack →
      activation.session.env.get? name = some value → activation.frame.Spans extent →
      slot.index < extent.on slot.stack →
      ∀ var : VarId, ∃ frame, (Emitted.store var name slot type.encoding).exec slots activation =
          (.ok .onward, activation.withFrame frame) ∧
        frame.Spans extent ∧ (∀ other, other ≠ slot → activation.frame.SameAt other frame) ∧
        ∀ later : Activation, frame.SameAt slot later.frame → ∀ (var : VarId) (target : String)
          (declared : DataType),
          (Emitted.load var target declared slot type.encoding).exec slots later =
            (.ok .onward, { later with session := { later.session with
              env := later.session.env.define target value } })) ∧
    (∀ (encoding : Encoding) (value : Value), encoding.stack = .value →
      ((∃ word, value.encode encoding = .ok word) ↔
        ∃ type : DataType, type.encoding = encoding ∧ value.hasType type = true)) ∧
    ∀ encoding ∈ [Encoding.intWord, .longWord, .charWord, .doubleBits],
      ∀ (word : Int64) (value : Value), Value.decode encoding word = .ok value →
        value.encode encoding = .ok word := by
  refine ⟨?_, fun encoding value word => Value.encode_ok_iff word value,
    fun encoding exact word value read => Value.encode_decode exact read⟩
  intro type value slot name extent activation fits placed bound spans inside var
  let carried : Carried := ⟨var, slot, type.encoding, value⟩
  have encoded : carried.encoding = type.encoding := rfl
  obtain ⟨frame, saved⟩ := activation.frame.save_of_hasType encoded fits placed
  have stored := Activate.storeValue_eq slots carried spans inside
  rw [saved] at stored
  refine ⟨frame, ?_, Frame.save_spans saved spans, ?_, ?_⟩
  · rw [Emitted.exec_store, bound]
    dsimp only
    rw [show Activate.storeValue slots slot type.encoding value activation = _ from stored]
  · intro other apart
    refine (Frame.Takes.cons saved .nil).sameAt fun found member => ?_
    rw [List.mem_singleton.mp member]
    exact apart.symm
  · intro later same var' target declared
    have holds : later.frame.Holds carried := (Frame.save_holds saved spans inside).sameAt same
    rw [Emitted.exec_load, show Activate.loadValue slots slot type.encoding later = _ from
      Activate.loadValue_eq slots holds placed]

/-- A resume with a NaN that has a payload, on a frame with other words. -/
def Activation.payloadNaN : Activation :=
  { session := { env := [[("x", .double ⟨0x7ff8000000000123⟩)]] }, words := [7, -1, 9],
    references := [] }

/-- The payload of a NaN is kept, and so are the words on both sides of its slot. Words of Bools and
of characters stand for the values that are packed in them. -/
theorem Encoding.lossless_payload :
    (∃ frame : Frame,
      (Emitted.store 4 "x" ⟨.value, 1⟩ .doubleBits).exec ⟨"words", "values", ⟨3, 0⟩, []⟩ .payloadNaN =
        (.ok .onward, Activation.payloadNaN.withFrame frame) ∧
      frame.words[0]? = some 7 ∧ frame.words[2]? = some 9 ∧
      ∀ later : Activation, frame.SameAt ⟨.value, 1⟩ later.frame →
        (Emitted.load 4 "x" .double ⟨.value, 1⟩ .doubleBits).exec ⟨"words", "values", ⟨3, 0⟩, []⟩
            later = (.ok .onward, { later with session := { later.session with
          env := later.session.env.define "x" (.double ⟨0x7ff8000000000123⟩) } })) ∧
    (∃ word, (Value.bool true).encode .boolWord = .ok word) ∧
    (Value.char 'é').encode .charWord = .ok 233 := by
  obtain ⟨kept, packed, back⟩ := Encoding.lossless ⟨"words", "values", ⟨3, 0⟩, []⟩
  obtain ⟨frame, stored, _, others, loads⟩ := kept .double (.double ⟨0x7ff8000000000123⟩)
    ⟨.value, 1⟩ "x" ⟨3, 0⟩ .payloadNaN rfl rfl rfl ⟨rfl, rfl⟩ (by decide) 4
  have before := others ⟨.value, 0⟩ (by decide)
  have behind := others ⟨.value, 2⟩ (by decide)
  refine ⟨⟨frame, stored, before, behind, ?_⟩, ?_, ?_⟩
  · exact fun later same => loads later same 4 "x" .double
  · exact (packed .boolWord (.bool true) rfl).mpr ⟨.bool, rfl, rfl⟩
  · exact back .charWord (by decide) 233 (.char 'é') (by rfl)

end Resumable
