import Resumable.Machine.Emission
import Resumable.Proofs.Machine.Course
import Resumable.Proofs.Scope.Symbols

/-! What stands in the slots of a frame, and what stores and loads make of it. -/

namespace Resumable

namespace Value

theorem decode_encode {encoding : Encoding} {value : Value} {word : Int64}
    (packed : value.encode encoding = .ok word) : decode encoding word = .ok value := by
  unfold encode at packed
  split at packed
  · cases packed
    rfl
  · rename_i value
    cases packed
    cases value <;> rfl
  · cases packed
    rfl
  · cases packed
    rfl
  · rename_i char
    cases packed
    have small : char.toNat < 2 ^ 63 := by
      have valid := char.valid
      have bound : char.toNat < 1114112 := by
        rcases valid with low | ⟨_, high⟩
        · exact Nat.lt_trans low (by decide)
        · exact high
      omega
    have back : (Int64.ofNat char.toNat).toInt = char.toNat := Int64.toInt_ofNat_of_lt small
    simp only [decode, back, Int.toNat_natCast, Char.ofNat_toNat]
    have valid : Nat.isValidChar char.toNat := char.valid
    simp [valid]
  · cases packed
    rfl
  · cases packed

theorem encode_of_hasType {type : DataType} {value : Value} (fits : value.hasType type = true)
    (word : type.encoding.stack = .value) : ∃ packed, value.encode type.encoding = .ok packed := by
  cases type with
  | string | ref => cases word
  | _ => cases value <;> first | exact ⟨_, rfl⟩ | cases fits

theorem encode_error {encoding : Encoding} {value : Value} {fault : RunFault}
    (failed : value.encode encoding = .error fault) : fault = .unpackable value encoding := by
  unfold encode at failed
  split at failed <;> first | exact (Except.error.inj failed).symm | cases failed

end Value

/-- Both stacks of a machine. -/
structure Frame where
  words : List Int64
  references : List Value

namespace Frame

/-- A frame with a place for every slot of an extent. -/
def Spans (frame : Frame) (extent : Extent) : Prop :=
  frame.words.length = extent.values ∧ frame.references.length = extent.references

/-- A value stands in a slot, in the form that it is packed in. -/
def Holds (frame : Frame) (carried : Carried) : Prop :=
  match carried.slot.stack with
  | .value => ∃ word, carried.value.encode carried.encoding = .ok word ∧
    frame.words[carried.slot.index]? = some word
  | .reference => frame.references[carried.slot.index]? = some carried.value

def save (frame : Frame) (carried : Carried) : Except RunFault Frame :=
  match carried.slot.stack with
  | .value => (carried.value.encode carried.encoding).map fun word =>
      { frame with words := frame.words.set carried.slot.index word }
  | .reference =>
    .ok { frame with references := frame.references.set carried.slot.index carried.value }

variable {frame after : Frame} {carried other : Carried} {extent : Extent}

theorem Spans.inside (spans : frame.Spans extent) {slot : Slot}
    (below : slot.index < extent.on slot.stack) :
    match slot.stack with
    | .value => slot.index < frame.words.length
    | .reference => slot.index < frame.references.length := by
  rcases slot with ⟨_ | _, index⟩
  · exact spans.1 ▸ below
  · exact spans.2 ▸ below

theorem save_spans (saved : frame.save carried = .ok after) (spans : frame.Spans extent) :
    after.Spans extent := by
  rw [save] at saved
  split at saved
  · cases packed : carried.value.encode carried.encoding with
    | error => rw [packed] at saved; cases saved
    | ok word =>
        rw [packed] at saved
        cases saved
        exact ⟨List.length_set.trans spans.1, spans.2⟩
  · cases saved
    exact ⟨spans.1, List.length_set.trans spans.2⟩

theorem save_holds (saved : frame.save carried = .ok after) (spans : frame.Spans extent)
    (below : carried.slot.index < extent.on carried.slot.stack) : after.Holds carried := by
  have inside := spans.inside below
  rw [save] at saved
  rw [Holds]
  split at saved
  · cases packed : carried.value.encode carried.encoding with
    | error => rw [packed] at saved; cases saved
    | ok word =>
        rw [packed] at saved
        cases saved
        rename_i stack
        rw [stack] at inside
        exact ⟨word, rfl, List.getElem?_set_self inside⟩
  · cases saved
    rename_i stack
    rw [stack] at inside
    exact List.getElem?_set_self inside

theorem save_other (saved : frame.save carried = .ok after) (apart : other.slot ≠ carried.slot)
    (holds : frame.Holds other) : after.Holds other := by
  rcases other with ⟨var, ⟨stack, index⟩, encoding, value⟩
  rcases carried with ⟨var', ⟨stack', index'⟩, encoding', value'⟩
  have elsewhere : stack = stack' → index' ≠ index := fun same same' => apart (by rw [same, same'])
  cases stack' with
  | value =>
      simp only [save] at saved
      cases packed : value'.encode encoding' with
      | error => rw [packed] at saved; cases saved
      | ok word =>
          rw [packed] at saved
          cases saved
          cases stack with
          | value =>
              obtain ⟨old, packed', there⟩ := holds
              exact ⟨old, packed', (List.getElem?_set_ne (elsewhere rfl)).trans there⟩
          | reference => exact holds
  | reference =>
      cases saved
      cases stack with
      | value => exact holds
      | reference => exact (List.getElem?_set_ne (elsewhere rfl)).trans holds

theorem save_of_holds (holds : frame.Holds carried) : frame.save carried = .ok frame := by
  rw [Holds] at holds
  rw [save]
  split at holds
  · obtain ⟨word, packed, there⟩ := holds
    obtain ⟨inside, rfl⟩ := List.getElem?_eq_some_iff.mp there
    rw [packed, Except.map, List.set_getElem_self]
  · obtain ⟨inside, same⟩ := List.getElem?_eq_some_iff.mp holds
    rw [← same, List.set_getElem_self]

theorem save_error {fault : RunFault} (failed : frame.save carried = .error fault) :
    carried.slot.stack = .value ∧ carried.value.encode carried.encoding = .error fault := by
  rw [save] at failed
  split at failed
  · rename_i stack
    cases packed : carried.value.encode carried.encoding with
    | error => rw [packed] at failed; cases failed; exact ⟨stack, rfl⟩
    | ok => rw [packed] at failed; cases failed
  · cases failed

end Frame
end Resumable
