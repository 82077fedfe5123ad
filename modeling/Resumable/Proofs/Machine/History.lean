import Resumable.Proofs.Machine.Transfers

/-! Frames after a history of stores: each slot has what was stored there last. -/

namespace Resumable

def Carried.lastIn (slot : Slot) (history : List Carried) : Option Carried :=
  history.reverse.find? fun carried => carried.slot = slot

section Last

open Carried

variable {slot : Slot} {carried : Carried} {history more : List Carried}

theorem lastIn_append (slot : Slot) (history more : List Carried) :
    lastIn slot (history ++ more) = (lastIn slot more).or (lastIn slot history) := by
  simp [lastIn]

theorem lastIn_slot (last : lastIn slot history = some carried) : carried.slot = slot := by
  simpa using List.find?_some last

theorem lastIn_eq_none (apart : ∀ carried ∈ history, slot ≠ carried.slot) :
    lastIn slot history = none := by
  refine List.find?_eq_none.mpr fun carried member => ?_
  simpa using (apart carried (List.mem_reverse.mp member)).symm

theorem lastIn_of_mem
    (apart : ∀ carried ∈ history, ∀ other ∈ history, carried.slot = other.slot → carried = other)
    (member : carried ∈ history) : lastIn carried.slot history = some carried := by
  have some_ : (lastIn carried.slot history).isSome :=
    List.find?_isSome.mpr ⟨carried, List.mem_reverse.mpr member, decide_eq_true rfl⟩
  obtain ⟨found, last⟩ := Option.isSome_iff_exists.mp some_
  have inside := List.mem_reverse.mp (List.mem_of_find?_eq_some last)
  rw [last, apart found inside carried member (lastIn_slot last)]

end Last

/-- A frame in which every slot has what was stored there last. -/
structure Frame.Records (frame : Frame) (extent : Extent) (history : List Carried) : Prop where
  spans : frame.Spans extent
  holds : ∀ slot carried, Carried.lastIn slot history = some carried → frame.Holds carried

namespace Frame.Records

variable {frame after : Frame} {extent : Extent} {history : List Carried} {carried : Carried}

theorem empty (spans : frame.Spans extent) : frame.Records extent [] :=
  ⟨spans, fun _ _ impossible => by cases impossible⟩

theorem save (records : frame.Records extent history) (saved : frame.save carried = .ok after)
    (below : carried.slot.index < extent.on carried.slot.stack) :
    after.Records extent (history ++ [carried]) := by
  refine ⟨save_spans saved records.spans, fun slot found last => ?_⟩
  rw [lastIn_append] at last
  by_cases same : carried.slot = slot
  · simp only [Carried.lastIn, List.reverse_singleton, List.find?_singleton, same, decide_true,
      if_true, Option.some_or, Option.some.injEq] at last
    exact last ▸ save_holds saved records.spans below
  · have apart : slot ≠ carried.slot := fun equal => same equal.symm
    rw [lastIn_eq_none (by simpa using apart), Option.none_or] at last
    exact save_other saved (lastIn_slot last ▸ apart) (records.holds slot found last)

theorem saveAll (records : frame.Records extent history) {all : List Carried}
    (below : ∀ carried ∈ all, carried.slot.index < extent.on carried.slot.stack) :
    (frame.saveAll all).frame.Records extent (history ++ (frame.saveAll all).done) := by
  induction all generalizing frame history with
  | nil => rwa [Frame.saveAll, List.append_nil]
  | cons first rest ih =>
      rw [Frame.saveAll]
      cases step : frame.save first with
      | error => rwa [List.append_nil]
      | ok after =>
          have further := ih (records.save step (below first List.mem_cons_self))
            fun other member => below other (List.mem_cons_of_mem _ member)
          rwa [List.append_assoc] at further

end Frame.Records
end Resumable
