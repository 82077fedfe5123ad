import Resumable.Json.Machine
import Resumable.Json.Source
import Resumable.Proofs.Json.Layouts
import Resumable.Proofs.Json.Trees

/-! Sources and machines read back from the text of their files, under any lawful texts. -/

namespace Resumable

open Json

variable {texts : Texts}

theorem Expr.fromJson?_json (e : Expr) (finite : ∀ d ∈ e.doubles, d.isFinite = true) :
    Expr.fromJson? e.json = some e :=
  e.ofJson?_json _ finite (by omega)

theorem Stmt.fromJson?_json (s : Stmt) (finite : ∀ d ∈ s.doubles, d.isFinite = true) :
    Stmt.fromJson? s.json = some s :=
  s.ofJson?_json _ finite (by omega)

/-! ### Sources -/

namespace Source

/-- Whether a file can hold a source: counts are words there, and doubles numbers. -/
structure Writable (source : Source) : Prop where
  fits : source.arity < UInt64.size
  finite : ∀ d ∈ source.function.doubles, d.isFinite = true

variable {source : Source} {sources : List Source}

theorem Writable.ofJson?_json (writable : source.Writable) : ofJson? source.json = some source := by
  have most : (source.arity : Int) ≤ 18446744073709551615 := by
    have fits := writable.fits
    norm_num [UInt64.size] at fits
    omega
  rw [ofJson?, json, record?_obj rfl (by simp)]
  simp [str?, intIn?, most, source.function.fromJson?_json writable.finite]

theorem Writable.legible_json (writable : source.Writable)
    (kept : texts.Keeps source.function.doubles) : source.json.Legible texts :=
  ⟨trivial, wordSized_natCast writable.fits,
    source.function.legible_json fun d own => kept d own (writable.finite d own), trivial⟩

theorem listOfJson?_list (writable : ∀ source ∈ sources, source.Writable) :
    listOfJson? (.arr (sources.map json)) = some sources := by
  have each : (sources.map json).mapM ofJson? = some sources :=
    mapM_map fun source member => (writable source member).ofJson?_json
  simp [listOfJson?, arr?, each]

theorem listOfJson?_one (writable : source.Writable) :
    listOfJson? source.json = some [source] := by
  rw [listOfJson?, writable.ofJson?_json]
  rfl

theorem parseAll_text (lawful : texts.Lawful) {json : Json} {text : String}
    (legible : json.Legible texts) (shallow : json.depth ≤ fileLevels)
    (read : listOfJson? json = some sources) (written : text ∈ texts.written json) :
    parseAll texts text = .ok sources := by
  rw [parseAll, lawful.reads_back json legible shallow text written]
  simp [read]

end Source

/-! ### Machines -/

mutual

def Emitted.doubles : Emitted → List Double
  | .run statement => statement.doubles
  | .branch condition thenBlock elseBlock =>
    condition.doubles ++ (Emitted.allDoubles thenBlock ++ Emitted.allDoubles elseBlock)
  | .result value => value.doubles
  | _ => []

def Emitted.allDoubles : List Emitted → List Double
  | [] => []
  | code :: rest => code.doubles ++ Emitted.allDoubles rest

end

mutual

def Emitted.numbers : Emitted → List Nat
  | .branch _ thenBlock elseBlock => Emitted.allNumbers thenBlock ++ Emitted.allNumbers elseBlock
  | .store var _ slot _ => [var, slot.index]
  | .load var _ _ slot _ => [var, slot.index]
  | .goTo (.region id) => [id]
  | _ => []

def Emitted.allNumbers : List Emitted → List Nat
  | [] => []
  | code :: rest => code.numbers ++ Emitted.allNumbers rest

end

theorem nat?_natJson {n : Nat} (fits : n < UInt32.size) : nat? (natJson n) = some n := by
  rw [nat?, natJson, intIn?_int (by omega) (by omega)]
  rfl

theorem Stack.ofJson?_text (stack : Stack) : Stack.ofJson? (.str stack.text) = some stack :=
  bareVariant?_name Stack.text (by simp [Stack.text]) (by cases stack <;> simp)

theorem Slot.ofJson?_json {slot : Slot} (fits : slot.index < UInt32.size) :
    Slot.ofJson? slot.json = some slot := by
  rw [Slot.ofJson?, Slot.json, record?_obj rfl (by simp)]
  simp [Stack.ofJson?_text, nat?_natJson fits]

theorem Encoding.ofJson?_text (encoding : Encoding) :
    Encoding.ofJson? (.str encoding.text) = some encoding :=
  bareVariant?_name Encoding.text (by simp [Encoding.all, Encoding.text])
    (by cases encoding <;> simp [Encoding.all])

mutual

theorem Emitted.ofJson?_json (code : Emitted) (levels : Nat)
    (fits : ∀ n ∈ code.numbers, n < UInt32.size)
    (finite : ∀ d ∈ code.doubles, d.isFinite = true) (shallow : code.json.depth < levels) :
    Emitted.ofJson? levels code.json = some code := by
  obtain ⟨levels, rfl⟩ := Nat.exists_eq_add_one_of_ne_zero (Nat.ne_zero_of_lt shallow)
  match code with
  | .run statement =>
      simp [Emitted.json, tagged, Emitted.ofJson?, variant?, statement.fromJson?_json finite]
  | .branch condition thenBlock elseBlock =>
      rw [Emitted.doubles, List.forall_mem_append, List.forall_mem_append] at finite
      rw [Emitted.numbers, List.forall_mem_append] at fits
      simp only [Emitted.json, tagged, depth, depthOfFields] at shallow
      have conditionBack := condition.fromJson?_json finite.1
      have thenBack := Emitted.mapM_jsons thenBlock levels fits.1 finite.2.1 (by omega)
      have elseBack := Emitted.mapM_jsons elseBlock levels fits.2 finite.2.2 (by omega)
      rw [Emitted.json, tagged, Emitted.ofJson?]
      simp [variant?, record?_obj, arr?, conditionBack, thenBack, elseBack]
  | .store var name slot encoding =>
      simp only [Emitted.numbers, List.forall_mem_cons] at fits
      rw [Emitted.json, tagged, Emitted.ofJson?]
      simp [variant?, record?_obj, str?, nat?_natJson fits.1, Slot.ofJson?_json fits.2.1,
        Encoding.ofJson?_text]
  | .load var name type slot encoding =>
      simp only [Emitted.numbers, List.forall_mem_cons] at fits
      rw [Emitted.json, tagged, Emitted.ofJson?]
      simp [variant?, record?_obj, str?, nat?_natJson fits.1, DataType.ofJson?_json,
        Slot.ofJson?_json fits.2.1, Encoding.ofJson?_text]
  | .result value =>
      simp [Emitted.json, tagged, Emitted.ofJson?, variant?, value.fromJson?_json finite]
  | .goTo (.region id) =>
      simp only [Emitted.numbers, List.forall_mem_cons] at fits
      simp [Emitted.json, Target.json, tagged, Emitted.ofJson?, Target.ofJson?, variant?,
        nat?_natJson fits.1]
  | .goTo .complete => rfl
  | .leave => rfl

theorem Emitted.mapM_jsons (codes : List Emitted) (levels : Nat)
    (fits : ∀ n ∈ Emitted.allNumbers codes, n < UInt32.size)
    (finite : ∀ d ∈ Emitted.allDoubles codes, d.isFinite = true)
    (shallow : depthOfAll (Emitted.jsons codes) < levels) :
    (Emitted.jsons codes).mapM (Emitted.ofJson? levels) = some codes := by
  match codes with
  | [] => rfl
  | code :: rest =>
      rw [Emitted.allNumbers, List.forall_mem_append] at fits
      rw [Emitted.allDoubles, List.forall_mem_append] at finite
      rw [Emitted.jsons, depthOfAll, Nat.max_lt] at shallow
      simp [Emitted.jsons, code.ofJson?_json levels fits.1 finite.1 shallow.1,
        Emitted.mapM_jsons rest levels fits.2 finite.2 shallow.2]

end

theorem legible_natJson {n : Nat} (fits : n < UInt32.size) : (natJson n).Legible texts :=
  wordSized_natCast (Nat.lt_trans fits (by decide))

theorem Slot.legible_json {slot : Slot} (fits : slot.index < UInt32.size) :
    slot.json.Legible texts :=
  ⟨trivial, legible_natJson fits, trivial⟩

mutual

theorem Emitted.legible_json (code : Emitted) (fits : ∀ n ∈ code.numbers, n < UInt32.size)
    (readBack : ∀ d ∈ code.doubles, texts.Rereads d) : code.json.Legible texts := by
  match code with
  | .run statement => exact ⟨statement.legible_json readBack, trivial⟩
  | .branch condition thenBlock elseBlock =>
      rw [Emitted.doubles, List.forall_mem_append, List.forall_mem_append] at readBack
      rw [Emitted.numbers, List.forall_mem_append] at fits
      exact ⟨⟨condition.legible_json readBack.1,
        Emitted.legible_jsons thenBlock fits.1 readBack.2.1,
        Emitted.legible_jsons elseBlock fits.2 readBack.2.2, trivial⟩, trivial⟩
  | .store var name slot encoding =>
      simp only [Emitted.numbers, List.forall_mem_cons] at fits
      exact ⟨⟨legible_natJson fits.1, trivial, Slot.legible_json fits.2.1, trivial, trivial⟩,
        trivial⟩
  | .load var name type slot encoding =>
      simp only [Emitted.numbers, List.forall_mem_cons] at fits
      exact ⟨⟨legible_natJson fits.1, trivial, type.legible_json, Slot.legible_json fits.2.1,
        trivial, trivial⟩, trivial⟩
  | .result value => exact ⟨value.legible_json readBack, trivial⟩
  | .goTo (.region id) =>
      simp only [Emitted.numbers, List.forall_mem_cons] at fits
      exact ⟨⟨legible_natJson fits.1, trivial⟩, trivial⟩
  | .goTo .complete => exact ⟨trivial, trivial⟩
  | .leave => trivial

theorem Emitted.legible_jsons (codes : List Emitted)
    (fits : ∀ n ∈ Emitted.allNumbers codes, n < UInt32.size)
    (readBack : ∀ d ∈ Emitted.allDoubles codes, texts.Rereads d) :
    LegibleItems texts (Emitted.jsons codes) := by
  match codes with
  | [] => trivial
  | code :: rest =>
      rw [Emitted.allNumbers, List.forall_mem_append] at fits
      rw [Emitted.allDoubles, List.forall_mem_append] at readBack
      exact ⟨code.legible_json fits.1 readBack.1, Emitted.legible_jsons rest fits.2 readBack.2⟩

end

namespace StateBody

variable {state : StateBody}

def numbers (state : StateBody) : List Nat := state.id :: Emitted.allNumbers state.statements

theorem ofJson?_json (fits : ∀ n ∈ state.numbers, n < UInt32.size)
    (finite : ∀ d ∈ Emitted.allDoubles state.statements, d.isFinite = true) :
    ofJson? state.json = some state := by
  rw [numbers, List.forall_mem_cons] at fits
  have shallow : depthOfAll (Emitted.jsons state.statements) < state.json.depth + 1 := by
    simp only [json, depth, depthOfFields]
    omega
  have statements := Emitted.mapM_jsons state.statements _ fits.2 finite shallow
  rw [ofJson?]
  rw [json] at statements ⊢
  simp [record?_obj, arr?, nat?_natJson fits.1, statements]

theorem legible_json (fits : ∀ n ∈ state.numbers, n < UInt32.size)
    (readBack : ∀ d ∈ Emitted.allDoubles state.statements, texts.Rereads d) :
    state.json.Legible texts := by
  rw [numbers, List.forall_mem_cons] at fits
  exact ⟨legible_natJson fits.1, Emitted.legible_jsons _ fits.2 readBack, trivial⟩

end StateBody

namespace MachineParam

theorem ofJson?_json (param : MachineParam) : ofJson? param.json = some param := by
  rw [ofJson?, json, record?_obj rfl (by simp)]
  simp [str?, DataType.ofJson?_json]

theorem legible_json (param : MachineParam) : param.json.Legible texts :=
  ⟨trivial, param.type.legible_json, trivial⟩

end MachineParam

namespace SlotEntry

variable {entry : SlotEntry}

def numbers (entry : SlotEntry) : List Nat := [entry.var, entry.slot.index]

theorem ofJson?_json (fits : ∀ n ∈ entry.numbers, n < UInt32.size) :
    ofJson? entry.json = some entry := by
  simp only [numbers, List.forall_mem_cons] at fits
  rw [ofJson?, json, record?_obj rfl (by simp)]
  simp [str?, nat?_natJson fits.1, DataType.ofJson?_json, Slot.ofJson?_json fits.2.1,
    Encoding.ofJson?_text]

theorem legible_json (fits : ∀ n ∈ entry.numbers, n < UInt32.size) : entry.json.Legible texts := by
  simp only [numbers, List.forall_mem_cons] at fits
  exact ⟨legible_natJson fits.1, trivial, entry.type.legible_json, Slot.legible_json fits.2.1,
    trivial, trivial⟩

end SlotEntry

namespace SlotTable

variable {slots : SlotTable}

def numbers (slots : SlotTable) : List Nat :=
  slots.frame.values :: slots.frame.references :: slots.entries.flatMap SlotEntry.numbers

theorem ofJson?_json (fits : ∀ n ∈ slots.numbers, n < UInt32.size) :
    ofJson? slots.json = some slots := by
  simp only [numbers, List.forall_mem_cons] at fits
  have entries : (slots.entries.map SlotEntry.json).mapM SlotEntry.ofJson? = some slots.entries :=
    mapM_map fun entry member => SlotEntry.ofJson?_json fun n own =>
      fits.2.2 n (List.mem_flatMap.mpr ⟨entry, member, own⟩)
  rw [ofJson?, json, record?_obj rfl (by simp)]
  simp [str?, arr?, nat?_natJson fits.1, nat?_natJson fits.2.1, entries]

theorem legible_json (fits : ∀ n ∈ slots.numbers, n < UInt32.size) : slots.json.Legible texts := by
  simp only [numbers, List.forall_mem_cons] at fits
  have entries : LegibleItems texts (slots.entries.map SlotEntry.json) :=
    legibleItems_map fun entry member => SlotEntry.legible_json fun n own =>
      fits.2.2 n (List.mem_flatMap.mpr ⟨entry, member, own⟩)
  exact ⟨trivial, trivial, legible_natJson fits.1, legible_natJson fits.2.1, entries, trivial⟩

end SlotTable

namespace Machine

def numbers (machine : Machine) : List Nat :=
  machine.slots.numbers ++ machine.states.flatMap StateBody.numbers

def doubles (machine : Machine) : List Double :=
  machine.states.flatMap fun state => Emitted.allDoubles state.statements

/-- Whether a file can hold a machine. -/
structure Writable (machine : Machine) : Prop where
  fits : ∀ n ∈ machine.numbers, n < UInt32.size
  finite : ∀ d ∈ machine.doubles, d.isFinite = true

variable {machine : Machine}

theorem Writable.ofJson?_json (writable : machine.Writable) :
    ofJson? machine.json = some machine := by
  obtain ⟨fits, finite⟩ := writable
  rw [numbers, List.forall_mem_append] at fits
  have params : (machine.params.map MachineParam.json).mapM MachineParam.ofJson? =
      some machine.params :=
    mapM_map fun param _ => param.ofJson?_json
  have states : (machine.states.map StateBody.json).mapM StateBody.ofJson? =
      some machine.states :=
    mapM_map fun state member => StateBody.ofJson?_json
      (fun n own => fits.2 n (List.mem_flatMap.mpr ⟨state, member, own⟩))
      (fun d own => finite d (List.mem_flatMap.mpr ⟨state, member, own⟩))
  rw [ofJson?, json, record?_obj rfl (by simp)]
  simp [str?, arr?, params, DataType.ofJson?_json, states, SlotTable.ofJson?_json fits.1]

theorem Writable.legible_json (writable : machine.Writable) (kept : texts.Keeps machine.doubles) :
    machine.json.Legible texts := by
  obtain ⟨fits, finite⟩ := writable
  rw [numbers, List.forall_mem_append] at fits
  have params : LegibleItems texts (machine.params.map MachineParam.json) :=
    legibleItems_map fun param _ => param.legible_json
  have states : LegibleItems texts (machine.states.map StateBody.json) :=
    legibleItems_map fun state member => StateBody.legible_json
      (fun n own => fits.2 n (List.mem_flatMap.mpr ⟨state, member, own⟩))
      (fun d own =>
        have inside := List.mem_flatMap.mpr ⟨state, member, own⟩
        kept d inside (finite d inside))
  exact ⟨trivial, params, machine.yieldType.legible_json, states,
    SlotTable.legible_json fits.1, trivial⟩

theorem ofText?_text (lawful : texts.Lawful) (writable : machine.Writable)
    (kept : texts.Keeps machine.doubles) (shallow : machine.json.depth ≤ fileLevels)
    {text : String} (written : text ∈ texts.written machine.json) :
    ofText? texts text = some machine := by
  rw [ofText?, lawful.reads_back _ (writable.legible_json kept) shallow text written]
  exact writable.ofJson?_json

end Machine

/-- Files lose nothing: under lawful texts that read back the finite doubles in them, a list of
sources, one source and a machine are read back from any text they are written as. -/
theorem texts_read_back (lawful : texts.Lawful) (sources : List Source) (source : Source)
    (machine : Machine) :
    ((∀ source ∈ sources, source.Writable ∧ texts.Keeps source.function.doubles) →
      (Json.arr (sources.map Source.json)).depth ≤ fileLevels →
        ∀ text ∈ texts.written (Json.arr (sources.map Source.json)),
          Source.parseAll texts text = .ok sources) ∧
    (source.Writable → texts.Keeps source.function.doubles → source.json.depth ≤ fileLevels →
      ∀ text ∈ texts.written source.json, Source.parseAll texts text = .ok [source]) ∧
    (machine.Writable → texts.Keeps machine.doubles → machine.json.depth ≤ fileLevels →
      ∀ text ∈ texts.written machine.json, Machine.ofText? texts text = some machine) := by
  refine ⟨fun each shallow text written => ?_, fun writable kept shallow text written => ?_,
    fun writable kept shallow text written =>
      Machine.ofText?_text lawful writable kept shallow written⟩
  · have legible : (Json.arr (sources.map Source.json)).Legible texts :=
      legibleItems_map fun source member =>
        (each source member).1.legible_json (each source member).2
    exact Source.parseAll_text lawful legible shallow
      (Source.listOfJson?_list fun source member => (each source member).1) written
  · exact Source.parseAll_text lawful (writable.legible_json kept) shallow
      (Source.listOfJson?_one writable) written

/-- A source with escapes, a double, and fields that are left out. -/
def sampleSource : Source where
  name := "ticks"
  arity := 2
  function := .function [⟨"limit", .long, {}⟩] .double
    (.block [.declare "mark" (.ref "Host") true (.literal (.str "\x22\n\x01") {}) {},
      .branch (.reference "limit" {}) (.evaluate (.suspend (.literal (.double
        (.ofDecimal true 15 (-8))) ⟨some .double, ⟨"f", ⟨-1, 0⟩, {}⟩⟩) {}) {}) none {}] {}) {}

def sampleMachine : Machine where
  name := "ticks"
  params := [⟨"limit", .long⟩]
  yieldType := .double
  states := [⟨0, [.load 4294967295 "mark" .string ⟨.reference, 0⟩ .reference,
    .branch (.literal (.int (-9223372036854775808)) {}) [.goTo (.region 1), .leave] []]⟩,
    ⟨1, [.result (.literal (.double (.ofDecimal true 15 (-8))) {}), .goTo .complete, .leave]⟩]
  slots := ⟨"values", "references", ⟨0, 1⟩, [⟨7, "mark", .string, ⟨.reference, 0⟩, .reference⟩]⟩

theorem sample_texts_read_back :
    Source.parseAll .standard
        (Texts.standard.compact (.arr ([sampleSource, sampleSource].map Source.json))) =
      .ok [sampleSource, sampleSource] ∧
    Source.parseAll .standard (Texts.standard.pretty sampleSource.json) = .ok [sampleSource] ∧
    Machine.ofText? .standard (sampleMachine.jsonText .standard) = some sampleMachine := by
  have source : sampleSource.Writable := ⟨by decide, by decide +kernel⟩
  have machine : sampleMachine.Writable := ⟨by decide, by decide +kernel⟩
  have rereads : ∀ d ∈ sampleSource.function.doubles ++ sampleMachine.doubles,
      Texts.standard.Rereads d := by decide +kernel
  have kept : Texts.standard.Keeps sampleSource.function.doubles :=
    fun d own _ => rereads d (List.mem_append_left _ own)
  have keptMachine : Texts.standard.Keeps sampleMachine.doubles :=
    fun d own _ => rereads d (List.mem_append_right _ own)
  obtain ⟨list, one, whole⟩ := texts_read_back Texts.standard_lawful [sampleSource, sampleSource]
    sampleSource sampleMachine
  refine ⟨list (by simp [source, kept]) (by decide +kernel) _ (by simp [Texts.written]),
    one source kept (by decide +kernel) _ (by simp [Texts.written]),
    whole machine keptMachine (by decide +kernel) _ (by simp [Texts.written, Machine.jsonText])⟩

end Resumable
