import Resumable.Proofs.Eval.Arguments
import Resumable.Proofs.Eval.Bindings
import Resumable.Proofs.Lowering.Function

/-! What a function starts with, over its own names and over the local names of its variables. -/

namespace Resumable

open Symbols

section Define

variable {inner : Naming} {outer : List Naming} {source target env : Env} {names locals : List String}
  {values : List Value} {fits : String → Value → Prop}

theorem Placed.defineAll (placed : Placed (inner :: outer) source target) (open_ : target ≠ [])
    (same : names.length = locals.length) (same' : names.length = values.length)
    (new : ∀ name ∈ names, inner.lookup name = none) (distinct : names.Nodup)
    (fresh : ∀ localName ∈ locals, localName ∉ Naming.locals (inner :: outer))
    (apart : locals.Nodup) :
    Placed ((inner ++ names.zip locals) :: outer) (defineAll source names values)
      (defineAll target locals values) := by
  induction names generalizing inner source target locals values with
  | nil =>
      cases List.eq_nil_of_length_eq_zero same.symm
      cases List.eq_nil_of_length_eq_zero same'.symm
      rw [List.zip_nil_left, List.append_nil]
      exact placed
  | cons name rest ih =>
      obtain _ | ⟨localName, others⟩ := locals
      · cases same
      obtain _ | ⟨value, more⟩ := values
      · cases same'
      obtain ⟨outside, distinct⟩ := List.nodup_cons.mp distinct
      obtain ⟨outside', apart⟩ := List.nodup_cons.mp apart
      have here := new name List.mem_cons_self
      have first := placed.define open_ here (fresh localName List.mem_cons_self) value
      have further := ih first (Env.define_ne_nil open_) (Nat.succ.inj same) (Nat.succ.inj same')
        (fun other member => ?_) distinct (fun other member => ?_) apart
      · rw [List.append_assoc] at further
        exact further
      · have differs : other ≠ name := fun equal => outside (equal ▸ member)
        rw [Naming.lookup_append_single here, if_neg differs]
        exact new other (List.mem_cons_of_mem _ member)
      · have old := fresh other (List.mem_cons_of_mem _ member)
        simp only [Naming.locals_cons, List.map_append, List.map_cons, List.map_nil, List.mem_append,
          List.mem_singleton, not_or] at old ⊢
        exact ⟨⟨old.1, fun equal => outside' (equal ▸ member)⟩, old.2⟩

theorem Env.All.defineAll (all : env.All fits) (each : List.Forall₂ fits names values) :
    (defineAll env names values).All fits := by
  induction each generalizing env with
  | nil => exact all
  | cons may _ ih => exact ih (all.define may)

end Define

def Variable.entry (infos : List Variable) (args : List Value) : Session :=
  { env := defineAll .initial (infos.map Variable.localName) args, yields := some [] }

theorem Parameter.naming_makes {symbols : Symbols} {params : List Parameter}
    {infos : List Variable} {name localName : String}
    (becomes : List.Forall₂ (Parameter.Becomes symbols) params infos)
    (found : (Parameter.naming params infos).lookup name = some localName) :
    ∃ var type, Parameter.typing params name = some type ∧ Makes symbols var (localName, type) := by
  induction becomes with
  | nil => cases found
  | @cons param info params infos becomes _ ih =>
      by_cases same : name = param.name
      · have first : info.localName = localName := by
          simpa [Parameter.naming, same] using found
        exact ⟨info.id, param.type, by simp [Parameter.typing, same],
          info, becomes.found, first, becomes.type⟩
      · have apart : (name == param.name) = false := by simpa using same
        have further : (Parameter.naming params infos).lookup name = some localName := by
          simpa [Parameter.naming, List.lookup_cons, apart] using found
        obtain ⟨var, type, typed, makes⟩ := ih further
        refine ⟨var, type, ?_, makes⟩
        have differs : ¬ param.name = name := fun equal => same equal.symm
        simpa [Parameter.typing, differs] using typed

def Exec.answer (ran : Except Failure Unit × Session) : Except Failure (List Value) :=
  ran.1.map fun _ => (ran.2.yields.getD []).reverse

theorem Function.runDirect_eq {function : Function} {args : List Value}
    (accepted : checkArgs (function.params.map fun param => (param.name, param.type)) args = .ok ()) :
    function.runDirect args = Exec.answer (function.body.exec (function.entry args)) := by
  rw [Function.runDirect, accepted]
  change (do
    (function.body.exec (function.entry args)).1
    return ((function.body.exec (function.entry args)).2.yields.getD []).reverse) = _
  rw [Exec.answer]
  cases (function.body.exec (function.entry args)).1 <;> rfl

theorem Twin.answer {loud : Bool} {namings : List Naming} {source target : Session}
    {first second : Except Failure Unit × Session}
    (twin : Twin loud namings source target first second) (same : source.yields = target.yields) :
    Exec.answer second = Exec.answer first := by
  obtain ⟨new, left, right, _⟩ := twin.yields
  rw [Exec.answer, Exec.answer, twin.result, left, right, same]

section Entry

variable {body : Body} {function : Function} {infos : List Variable} {s' : Stmt} {route : Route}
  {args : List Value}

theorem Body.Built.types (built : body.Built function infos s' route) :
    function.params.map Parameter.type = infos.map Variable.type := by
  rw [← List.forall₂_eq_eq_eq, List.forall₂_map_left_iff, List.forall₂_map_right_iff]
  exact built.becomes.imp fun _ _ becomes => becomes.type.symm

theorem Body.Built.accepts (built : body.Built function infos s' route)
    (accepted : checkArgs (function.params.map fun param => (param.name, param.type)) args = .ok ()) :
    List.Forall₂ (fun (info : Variable) arg => Value.hasType arg info.type = true) infos args := by
  have fits := List.forall₂_map_left_iff.mp (checkArgs_ok accepted)
  have types : List.Forall₂ (fun type arg => Value.hasType arg type = true)
      (function.params.map Parameter.type) args := List.forall₂_map_left_iff.mpr fits
  rw [built.types] at types
  exact List.forall₂_map_left_iff.mp types

theorem Body.Built.paired (built : body.Built function infos s' route)
    (accepted : checkArgs (function.params.map fun param => (param.name, param.type)) args = .ok ()) :
    Paired true [Parameter.naming function.params infos] (function.entry args)
      (Variable.entry infos args) := by
  have placed : Placed [[]] Env.initial Env.initial := ⟨.nil, .cons ⟨rfl, by simp⟩ .nil⟩
  have same : (function.params.map Parameter.name).length =
      (infos.map Variable.localName).length := by
    simpa using built.becomes.length_eq
  have same' : (function.params.map Parameter.name).length = args.length := by
    simpa using (checkArgs_ok accepted).length_eq
  have all := placed.defineAll (List.cons_ne_nil _ _) same same' (fun _ _ => rfl) built.names
    (by simp) built.locals
  exact ⟨all, defineAll_ne_nil (List.cons_ne_nil _ _) _ _, fun _ => ⟨rfl, rfl⟩⟩

end Entry
end Resumable
