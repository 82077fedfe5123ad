import Resumable.Proofs.Eval.Environment
import Resumable.Proofs.Machine.Memory

/-! Carrying variables between an environment and a frame, many at a time. -/

namespace Resumable

namespace Frame

/-- What became of saving many values: those that are saved, why it ended early, and the frame. -/
structure Saved where
  done : List Carried
  fault : Option RunFault
  frame : Frame

/-- Saves one value after the other up to the first that can't be packed. -/
def saveAll : Frame → List Carried → Saved
  | frame, [] => ⟨[], none, frame⟩
  | frame, carried :: rest =>
    match frame.save carried with
    | .error fault => ⟨[], some fault, frame⟩
    | .ok after => { after.saveAll rest with done := carried :: (after.saveAll rest).done }

variable {frame : Frame} {all : List Carried} {carried : Carried} {extent : Extent}

theorem saveAll_done (saved : (frame.saveAll all).fault = none) : (frame.saveAll all).done = all := by
  induction all generalizing frame with
  | nil => rfl
  | cons first rest ih =>
      rw [saveAll] at saved ⊢
      cases step : frame.save first with
      | error => rw [step] at saved; cases saved
      | ok after =>
          rw [step] at saved
          exact congrArg (first :: ·) (ih saved)

theorem saveAll_fault {fault : RunFault} (failed : (frame.saveAll all).fault = some fault) :
    ∃ carried ∈ all, carried.slot.stack = .value ∧
      carried.value.encode carried.encoding = .error fault := by
  induction all generalizing frame with
  | nil => cases failed
  | cons first rest ih =>
      rw [saveAll] at failed
      cases step : frame.save first with
      | error found =>
          rw [step] at failed
          cases failed
          exact ⟨first, List.mem_cons_self, save_error step⟩
      | ok after =>
          rw [step] at failed
          obtain ⟨carried, member, cause⟩ := ih failed
          exact ⟨carried, List.mem_cons_of_mem _ member, cause⟩

theorem saveAll_filter {α : Type} {vars : List α} (carry : α → Carried) (keep : α → Bool)
    (apart : ∀ var ∈ vars, ∀ other ∈ vars, (carry var).slot = (carry other).slot → var = other)
    (stands : ∀ var ∈ vars, keep var = false → frame.Holds (carry var)) :
    (frame.saveAll ((vars.filter keep).map carry)).fault = (frame.saveAll (vars.map carry)).fault ∧
      (frame.saveAll ((vars.filter keep).map carry)).frame =
        (frame.saveAll (vars.map carry)).frame := by
  induction vars generalizing frame with
  | nil => exact ⟨rfl, rfl⟩
  | cons first rest ih =>
      have further : ∀ var ∈ rest, ∀ other ∈ rest, (carry var).slot = (carry other).slot →
          var = other := fun var member other member' =>
        apart var (List.mem_cons_of_mem _ member) other (List.mem_cons_of_mem _ member')
      cases kept : keep first with
      | false =>
          rw [List.filter_cons_of_neg (by simp [kept]), List.map_cons, saveAll,
            save_of_holds (stands first List.mem_cons_self kept)]
          exact ih further fun var member => stands var (List.mem_cons_of_mem _ member)
      | true =>
          rw [List.filter_cons_of_pos kept, List.map_cons, List.map_cons, saveAll, saveAll]
          cases step : frame.save (carry first) with
          | error => exact ⟨rfl, rfl⟩
          | ok after =>
              refine ih further fun var member left => ?_
              have elsewhere : (carry var).slot ≠ (carry first).slot := by
                intro same
                rw [apart var (List.mem_cons_of_mem _ member) first List.mem_cons_self same,
                  kept] at left
                cases left
              exact save_other step elsewhere (stands var (List.mem_cons_of_mem _ member) left)

end Frame

namespace Activation

def frame (activation : Activation) : Frame := ⟨activation.words, activation.references⟩

def withFrame (activation : Activation) (frame : Frame) : Activation :=
  { activation with words := frame.words, references := frame.references }

@[simp] theorem withFrame_session (activation : Activation) (frame : Frame) :
    (activation.withFrame frame).session = activation.session := rfl

@[simp] theorem withFrame_frame (activation : Activation) (frame : Frame) :
    (activation.withFrame frame).frame = frame := rfl

@[simp] theorem withFrame_self (activation : Activation) :
    activation.withFrame activation.frame = activation := rfl

@[simp] theorem withFrame_withFrame (activation : Activation) (first second : Frame) :
    (activation.withFrame first).withFrame second = activation.withFrame second := rfl

end Activation

section Values

variable (slots : SlotTable) {activation : Activation} (carried : Carried) {extent : Extent}

theorem Activate.storeValue_eq (spans : activation.frame.Spans extent)
    (below : carried.slot.index < extent.on carried.slot.stack) :
    storeValue slots carried.slot carried.encoding carried.value activation =
      match activation.frame.save carried with
      | .ok frame => (.ok (), activation.withFrame frame)
      | .error fault => (.error { fault := .run fault }, activation) := by
  have inside := spans.inside below
  rw [storeValue_apply, Frame.save]
  rcases carried with ⟨var, ⟨_ | _, index⟩, encoding, value⟩
  · dsimp only
    cases value.encode encoding with
    | error => rfl
    | ok word => exact if_pos inside
  · exact if_pos inside

theorem Activate.loadValue_eq {carried : Carried} (holds : activation.frame.Holds carried)
    (packed : carried.slot.stack = carried.encoding.stack) :
    loadValue slots carried.slot carried.encoding activation = (.ok carried.value, activation) := by
  rw [loadValue_apply]
  rcases carried with ⟨var, ⟨_ | _, index⟩, encoding, value⟩
  · obtain ⟨word, encoded, there⟩ := holds
    have there' : activation.words[index]? = some word := there
    simp only [there', Value.decode_encode encoded]
  · have there : activation.references[index]? = some value := holds
    simp only [there]

end Values

def Variable.carry (info : Variable) (value : Value) : Carried :=
  ⟨info.id, info.slot, info.encoding, value⟩

def Variable.held (env : Env) (info : Variable) : Carried :=
  info.carry ((env.get? info.localName).getD .unit)

theorem Symbols.Sound.saveAll_unfit {symbols : Symbols} {frame : Frame} {env : Env}
    {vars : List Variable} {fault : RunFault} (sound : symbols.Sound)
    (known : ∀ info ∈ vars, symbols.variables.get? info.id = some info)
    (failed : (frame.saveAll (vars.map (Variable.held env))).fault = some fault) :
    ∃ info ∈ vars, Value.hasType (info.held env).value info.type = false ∧
      fault = .unpackable (info.held env).value info.encoding := by
  obtain ⟨carried, member, stack, packs⟩ := Frame.saveAll_fault failed
  obtain ⟨info, listed, rfl⟩ := List.mem_map.mp member
  obtain ⟨type, place⟩ := sound.packed _ info (known info listed)
  refine ⟨info, listed, ?_, Value.encode_error packs⟩
  rw [Bool.eq_false_iff]
  intro fits
  obtain ⟨word, encoded⟩ := Value.encode_of_hasType fits (type ▸ place ▸ stack)
  rw [← type] at encoded
  exact absurd (encoded.symm.trans packs) fun impossible => by cases impossible

section Stores

variable {activation : Activation} {extent : Extent} {vars : List Variable}

/-- What storing does, wherever the slots lie: it fails, or it stores every variable with the value it
has. It leaves all but the frame alone. -/
theorem Emitted.stores_plain (slots : SlotTable) (vars : List Variable) (activation : Activation) :
    (∃ frame, Emitted.courseAll slots (vars.map Variable.store) activation =
      ⟨vars.map fun info => .store (info.held activation.session.env), .ok .onward,
        activation.withFrame frame⟩) ∨
    ∃ events failure frame, Emitted.courseAll slots (vars.map Variable.store) activation =
      ⟨events, .error failure, activation.withFrame frame⟩ := by
  induction vars generalizing activation with
  | nil => exact .inl ⟨activation.frame, rfl⟩
  | cons info rest ih =>
      rw [List.map_cons, Variable.store, Emitted.courseAll_store]
      cases found : activation.session.env.get? info.localName with
      | none => exact .inr ⟨[], _, activation.frame, rfl⟩
      | some value =>
          dsimp only
          have framed : ∃ frame, (Activate.storeValue slots info.slot info.encoding value
              activation).2 = activation.withFrame frame := by
            rw [Activate.storeValue_apply]
            split
            · split
              · split
                · exact ⟨⟨_, activation.references⟩, rfl⟩
                · exact ⟨activation.frame, rfl⟩
              · exact ⟨activation.frame, rfl⟩
            · split
              · exact ⟨⟨activation.words, _⟩, rfl⟩
              · exact ⟨activation.frame, rfl⟩
          obtain ⟨frame, same⟩ := framed
          rcases stored : Activate.storeValue slots info.slot info.encoding value activation with
            ⟨failure | _, after⟩ <;> rw [stored] at same <;> obtain rfl := same
          · exact .inr ⟨[], failure, frame, rfl⟩
          · have held : info.held activation.session.env = info.carry value := by
              rw [Variable.held, found]
              rfl
            rcases ih (activation.withFrame frame) with ⟨last, shape⟩ | ⟨events, failure, last, shape⟩
            · exact .inl ⟨last, by simp only [shape, List.map_cons, held]; rfl⟩
            · exact .inr ⟨_, failure, last, by simp only [shape]; rfl⟩

theorem Emitted.stores_course (slots : SlotTable) (rest : List Emitted)
    (spans : activation.frame.Spans extent)
    (below : ∀ info ∈ vars, info.slot.index < extent.on info.slot.stack)
    (values : ∀ info ∈ vars, ∃ value, activation.session.env.get? info.localName = some value) :
    Emitted.courseAll slots (vars.map Variable.store ++ rest) activation =
      match (activation.frame.saveAll (vars.map (Variable.held activation.session.env))).fault with
      | none => (Emitted.courseAll slots rest (activation.withFrame
          (activation.frame.saveAll (vars.map (Variable.held activation.session.env))).frame)).behind
            (vars.map fun info => .store (info.held activation.session.env))
      | some fault => ⟨(activation.frame.saveAll
          (vars.map (Variable.held activation.session.env))).done.map .store,
          .error { fault := .run fault }, activation.withFrame
          (activation.frame.saveAll (vars.map (Variable.held activation.session.env))).frame⟩ := by
  induction vars generalizing activation with
  | nil => rfl
  | cons info others ih =>
      obtain ⟨value, found⟩ := values info List.mem_cons_self
      have held : info.held activation.session.env = info.carry value := by
        rw [Variable.held, found]
        rfl
      have stored := Activate.storeValue_eq slots (info.carry value) spans
        (below info List.mem_cons_self)
      rw [List.map_cons, List.cons_append, Variable.store, Emitted.courseAll_store, found,
        List.map_cons, held, Frame.saveAll]
      dsimp only
      rw [show Activate.storeValue slots info.slot info.encoding value activation = _ from stored]
      cases step : activation.frame.save (info.carry value) with
      | error fault => rfl
      | ok frame =>
          have further := @ih (activation.withFrame frame) (Frame.save_spans step spans)
            (fun other member => below other (List.mem_cons_of_mem _ member))
            fun other member => values other (List.mem_cons_of_mem _ member)
          dsimp only
          rw [further]
          simp only [Activation.withFrame_session, Activation.withFrame_frame]
          cases (frame.saveAll (others.map (Variable.held activation.session.env))).fault with
          | none => rw [Course.behind_behind, List.map_cons, held]; rfl
          | some fault => rfl

theorem Emitted.leaving_saved (slots : SlotTable) (payload : Expr) (target : Target)
    (spans : activation.frame.Spans extent)
    (below : ∀ info ∈ vars, info.slot.index < extent.on info.slot.stack)
    (values : ∀ info ∈ vars, ∃ value, activation.session.env.get? info.localName = some value)
    {saved : Frame.Saved}
    (saves : activation.frame.saveAll (vars.map (Variable.held activation.session.env)) = saved) :
    Emitted.courseAll slots (vars.map Variable.store ++ [Emitted.result payload, .goTo target, .leave])
      activation = match saved.fault with
        | some fault => ⟨saved.done.map .store, .error { fault := .run fault },
            activation.withFrame saved.frame⟩
        | none => match payload.eval activation.session.env with
          | .error failure => ⟨saved.done.map .store ++ [Event.result payload], .error failure,
              activation.withFrame saved.frame⟩
          | .ok value => ⟨saved.done.map .store ++ [Event.result payload, .goTo target,
              .leave activation.session.env], .ok .left,
              { activation.withFrame saved.frame with result := some value, next := some target }⟩ := by
  subst saves
  rw [stores_course slots _ spans below values]
  cases fault : (activation.frame.saveAll
      (vars.map (Variable.held activation.session.env))).fault with
  | some fault => rfl
  | none =>
      dsimp only
      rw [Frame.saveAll_done fault, List.map_map, courseAll_result, Activation.withFrame_session]
      cases payload.eval activation.session.env <;> rfl

end Stores

section Loads

variable {activation : Activation} {vars : List Variable}

/-- The environment with the values that some variables have in another one. -/
def Env.take (env source : Env) (vars : List Variable) : Env :=
  vars.foldl (fun env info => env.define info.localName (info.held source).value) env

theorem Emitted.loads_course (slots : SlotTable) (rest : List Emitted) {source : Env}
    (holds : ∀ info ∈ vars, activation.frame.Holds (info.held source))
    (packed : ∀ info ∈ vars, info.slot.stack = info.encoding.stack) :
    Emitted.courseAll slots (vars.map Variable.load ++ rest) activation =
      (Emitted.courseAll slots rest (activation.withSession { activation.session with
        env := activation.session.env.take source vars })).behind
          (vars.map fun info => .load (info.held source)) := by
  induction vars generalizing activation with
  | nil => rfl
  | cons info others ih =>
      have loaded := Activate.loadValue_eq slots (holds info List.mem_cons_self)
        (packed info List.mem_cons_self)
      rw [List.map_cons, List.cons_append, Variable.load, Emitted.courseAll_load,
        show Activate.loadValue slots info.slot info.encoding activation = _ from loaded]
      have further := @ih (activation.withSession { activation.session with
          env := activation.session.env.define info.localName (info.held source).value })
        (fun other member => holds other (List.mem_cons_of_mem _ member))
        fun other member => packed other (List.mem_cons_of_mem _ member)
      exact (congrArg (Course.behind _) further).trans (Course.behind_behind _ _ _)

theorem Env.take_ne_nil {env : Env} (source : Env) (some_ : env ≠ []) : env.take source vars ≠ [] := by
  induction vars generalizing env with
  | nil => exact some_
  | cons info others ih => exact ih (Env.define_ne_nil some_)

theorem Env.get?_take {env : Env} (source : Env) (some_ : env ≠ []) (name : String) :
    (env.take source vars).get? name =
      if name ∈ vars.map Variable.localName then some ((source.get? name).getD .unit)
      else env.get? name := by
  induction vars generalizing env with
  | nil => rfl
  | cons info others ih =>
      have step := @ih (env.define info.localName (info.held source).value)
        (Env.define_ne_nil some_)
      rw [Env.take, List.foldl_cons]
      refine step.trans ?_
      rw [Env.get?_define some_]
      by_cases later : name ∈ others.map Variable.localName
      · simp [later]
      · by_cases same : name = info.localName
        · subst same
          rw [if_neg later, if_pos rfl, if_pos (by simp)]
          rfl
        · simp [later, same]

end Loads
end Resumable
