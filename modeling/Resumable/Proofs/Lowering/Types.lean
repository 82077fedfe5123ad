import Mathlib
import Resumable.Proofs.Lowering.Suspensions

/-! Types that are known without evaluation. Lowering tests them where a value initialises a
variable of a declaration that is split off, where it is handed out, and where it is a condition. -/

namespace Resumable

open Symbols Lower

namespace Symbols

def typeOf? (symbols : Symbols) (e : Expr) : Option DataType :=
  match e.staticType?, e with
  | some type, _ => some type
  | none, .reference localName _ =>
    (symbols.variables.vars.toList.find? fun info => info.localName = localName).map Variable.type
  | none, _ => none

/-- What is known about the type of an expression over local names passes a test. -/
structure Suits (symbols : Symbols) (fits : DataType → Bool) (e : Expr) : Prop where
  static : ∀ type, e.staticType? = some type → fits type = true
  named : e.staticType? = none → ∀ name mark, e = .reference name mark → ∃ info var,
    symbols.variables.get? var = some info ∧ info.localName = name ∧ fits info.type = true

def Keeps (before after : Symbols) : Prop := ∀ var info,
  before.variables.get? var = some info → after.variables.get? var = some info

variable {symbols before after : Symbols} {fits : DataType → Bool} {e e' : Expr}

theorem Suits.mono (suits : before.Suits fits e) (keeps : Keeps before after) :
    after.Suits fits e := by
  refine ⟨suits.static, fun unknown name mark is => ?_⟩
  obtain ⟨info, var, found, same, passes⟩ := suits.named unknown name mark is
  exact ⟨info, var, keeps var info found, same, passes⟩

/-- Local names tell variables apart, so that the type that is known of a name is the one tested. -/
theorem Suits.typeOf? (suits : symbols.Suits fits e) (sound : symbols.Sound) {type : DataType}
    (known : symbols.typeOf? e = some type) : fits type = true := by
  unfold Symbols.typeOf? at known
  cases static : e.staticType? with
  | some found =>
      simp only [static, Option.some.injEq] at known
      exact known ▸ suits.static found static
  | none =>
      cases e with
      | reference name mark =>
          obtain ⟨info, var, found, same, passes⟩ := suits.named static name mark rfl
          simp only [static] at known
          obtain ⟨other, first, rfl⟩ := Option.map_eq_some_iff.mp known
          obtain ⟨number, there⟩ := List.mem_iff_getElem?.mp (List.mem_of_find?_eq_some first)
          have found' : symbols.variables.get? number = some other := by
            rwa [Array.getElem?_toList] at there
          have named : other.localName = name := by simpa using List.find?_some first
          obtain rfl := sound.named var number info other found found' (same.trans named.symm)
          obtain rfl := Option.some.inj (found.symm.trans found')
          exact passes
      | _ => simp [static] at known

end Symbols

section Resolve

variable {before after : Draft} {scope : ScopeId} {e e' : Expr} {reads reads' : List VarId}
  {fits : DataType → Bool} {fault : DataType → LoweringFault}

theorem Expr.RenamedBy.mark {local? : String → Option String} (renamed : e.RenamedBy local? e') :
    e'.staticType? = e.staticType? ∧ ∀ name mark, e' = .reference name mark →
      ∃ old, e = .reference old mark ∧ local? old = some name := by
  cases renamed with
  | literal | function => exact ⟨rfl, fun _ _ impossible => by cases impossible⟩
  | @reference old name mark means =>
      refine ⟨by simp only [staticType?, Expr.mark]; cases mark.type <;> rfl, fun _ _ is => ?_⟩
      cases is
      exact ⟨old, rfl, means⟩
  | binary _ mark | unary _ mark | call _ mark | suspend mark =>
      refine ⟨?_, fun _ _ impossible => by cases impossible⟩
      simp only [staticType?, Expr.mark]
      cases mark.type <;> rfl

/-- What was tested before its names were resolved is suitable afterwards. -/
theorem Lower.resolve_suits
    (required : before.symbols.requireType scope e fits fault = .ok ())
    (done : resolve scope e reads before = .ok ((e', reads'), after)) :
    before.symbols.Suits fits e' := by
  obtain ⟨static, references⟩ := (resolve_renames done).mark
  have tested : ∀ type, before.symbols.inferType? scope e = some type → fits type = true := by
    intro type infers
    rw [requireType, infers] at required
    dsimp only at required
    split at required
    · assumption
    · cases required
  refine ⟨fun type known => tested type ?_, fun unknown name mark is => ?_⟩
  · unfold inferType?
    rw [← static, known]
  · obtain ⟨old, rfl, resolves⟩ := references name mark is
    obtain ⟨info, resolved, rfl⟩ := Option.map_eq_some_iff.mp resolves
    obtain ⟨var, _, found⟩ := Option.bind_eq_some_iff.mp resolved
    refine ⟨info, var, found, rfl, tested info.type ?_⟩
    unfold inferType?
    rw [← static, unknown]
    simp only [resolved, Option.map_some]

end Resolve

/-- The types that are known in the fragment of a node are suitable. An assignment is not tested,
and neither is anything in a construct that is kept whole. -/
def NodeKind.Suits (symbols : Symbols) (yieldType : DataType) (declares : Option VarId) :
    NodeKind → Prop
  | .branch condition _ => symbols.Suits (· = .bool) condition
  | .suspend payload => symbols.Suits yieldType.accepts payload
  | .statement (.declare _ type _ value _) => declares ≠ none → symbols.Suits type.accepts value
  | _ => True

theorem NodeKind.Suits.mono {before after : Symbols} {yieldType : DataType}
    {declares : Option VarId} {kind : NodeKind} (suits : kind.Suits before yieldType declares)
    (keeps : Keeps before after) : kind.Suits after yieldType declares := by
  cases kind with
  | branch => exact Symbols.Suits.mono suits keeps
  | suspend => exact Symbols.Suits.mono suits keeps
  | merge => trivial
  | statement s =>
      cases s with
      | declare => exact fun splits => (suits splits).mono keeps
      | _ => trivial

def Draft.Suitable (yieldType : DataType) (draft : Draft) : Prop :=
  ∀ id node, draft.graph.node? id = some node →
    node.kind.Suits draft.symbols yieldType node.declares

section Steps

variable {yieldType : DataType} {before after : Draft}

theorem Draft.Suitable.step (suitable : before.Suitable yieldType)
    (graph : after.graph = before.graph) (keeps : Keeps before.symbols after.symbols) :
    after.Suitable yieldType :=
  fun id node present => (suitable id node (graph ▸ present)).mono keeps

theorem Lower.declare_keeps {scope : ScopeId} {name : String} {type : DataType}
    {mutable parameter : Bool} {location : Location} {info : Variable}
    (done : declare scope name type mutable parameter location before = .ok (info, after)) :
    Keeps before.symbols after.symbols := by
  obtain ⟨_, _, table, _⟩ := declare_eq_ok (declare_symbols done).1
  intro var old present
  rw [table]
  exact (register_registered before.symbols scope name type mutable parameter location).get?_old
    present

theorem Draft.Suitable.addNode {kind : NodeKind} {scope : ScopeId} {location : Location}
    {reads : List VarId} {declares : Option VarId} {id : NodeId}
    (suitable : before.Suitable yieldType)
    (suits : kind.Suits before.symbols yieldType declares)
    (done : addNode kind scope location reads declares before = .ok (id, after)) :
    after.Suitable yieldType := by
  cases done
  intro id node present
  rw [Graph.node?_push] at present
  split at present
  · cases present
    exact suits.mono fun _ _ found => found
  · exact (suitable id node present).mono fun _ _ found => found

theorem Draft.suitable_resolving (yieldType : DataType) : Draft.Resolving
    fun _ before after => before.Suitable yieldType → after.Suitable yieldType where
  refl := fun _ suitable => suitable
  trans := fun first second suitable => second (first suitable)
  opens := by
    refine fun outer => ⟨fun before scope after done suitable => ?_⟩
    cases done
    exact suitable.step rfl fun _ _ found => found
  declares := fun _ _ _ _ _ _ => ⟨fun _ _ _ done suitable =>
    suitable.step (declare_adds done).1 (declare_keeps done)⟩
  resolves := by
    refine fun scope e reads => ⟨fun before a after done suitable => ?_⟩
    obtain ⟨graph, symbols⟩ := resolve_same done
    exact suitable.step graph (symbols ▸ fun _ _ found => found)

theorem Draft.suitable_lowering (context : LoweringContext) : Draft.Lowering
    (fun _ before after => before.Suitable context.yieldType → after.Suitable context.yieldType)
    context where
  toResolving := suitable_resolving context.yieldType
  warns := by
    refine fun cause location => ⟨fun before a after done suitable => ?_⟩
    cases done
    exact suitable
  connects := by
    refine fun source target => ⟨fun before a after done suitable id node present => ?_⟩
    obtain ⟨connected, symbols⟩ := connect_ok done
    rw [Graph.node?_connect connected, Option.map_eq_some_iff] at present
    obtain ⟨old, there, rfl⟩ := present
    rw [symbols]
    split <;> exact suitable id old there
  places := by
    refine fun s scope reads => ⟨fun before piece after done suitable => ?_⟩
    obtain ⟨id, _, made, done⟩ := bind_ok done
    obtain ⟨_, rfl⟩ := pure_ok done
    refine suitable.addNode ?_ made
    cases s with
    | declare => exact fun splits => absurd rfl splits
    | _ => trivial
  suspends := by
    refine fun payload scope location => ⟨fun before piece after done suitable => ?_⟩
    obtain ⟨_, plain, done⟩ := check_ok done
    obtain ⟨_, _, got, done⟩ := bind_ok done
    cases got
    obtain ⟨_, required, done⟩ := check_ok done
    obtain ⟨_, middle, inPayload, done⟩ := bind_ok done
    obtain ⟨id, _, made, done⟩ := bind_ok done
    obtain ⟨_, rfl⟩ := pure_ok done
    obtain ⟨graph, symbols⟩ := resolve_same inPayload
    refine (suitable.step graph (symbols ▸ fun _ _ found => found)).addNode ?_ made
    exact symbols ▸ resolve_suits required inPayload
  forks := by
    refine fun condition scope location => ⟨fun before forked after done suitable => ?_⟩
    obtain ⟨_, plain, done⟩ := check_ok done
    obtain ⟨_, _, got, done⟩ := bind_ok done
    cases got
    obtain ⟨_, required, done⟩ := check_ok done
    obtain ⟨_, middle, inCondition, done⟩ := bind_ok done
    obtain ⟨merge, merged, meets, done⟩ := bind_ok done
    obtain ⟨fork, _, made, done⟩ := bind_ok done
    obtain ⟨_, rfl⟩ := pure_ok done
    obtain ⟨graph, symbols⟩ := resolve_same inCondition
    have suits := resolve_suits required inCondition
    rw [← symbols] at suits
    have resolved := suitable.step graph (symbols ▸ fun _ _ found => found)
    have joint : NodeKind.Suits middle.symbols context.yieldType none .merge := trivial
    refine (resolved.addNode joint meets).addNode ?_ made
    cases meets
    exact suits.mono fun _ _ found => found
  declaration := by
    refine fun name type mutable value location scope =>
      ⟨fun before piece after done suitable => ?_⟩
    obtain ⟨_, plain, done⟩ := check_ok done
    obtain ⟨_, _, got, done⟩ := bind_ok done
    cases got
    obtain ⟨_, required, done⟩ := check_ok done
    obtain ⟨_, middle, inValue, done⟩ := bind_ok done
    obtain ⟨info, declared, declaring, done⟩ := bind_ok done
    obtain ⟨id, _, made, done⟩ := bind_ok done
    obtain ⟨_, rfl⟩ := pure_ok done
    obtain ⟨graph, symbols⟩ := resolve_same inValue
    have suits := resolve_suits required inValue
    rw [← symbols] at suits
    have keeps := declare_keeps declaring
    have resolved := suitable.step graph (symbols ▸ fun _ _ found => found)
    refine (resolved.step (declare_adds declaring).1 keeps).addNode ?_ made
    exact fun _ => suits.mono keeps

end Steps

/-- The types that are known in the fragment of a node pass the tests that there are. -/
def NodeKind.Typed (symbols : Symbols) (yieldType : DataType) : NodeKind → Prop
  | .branch condition _ => ∀ type, symbols.typeOf? condition = some type → type = .bool
  | .suspend payload => ∀ type, symbols.typeOf? payload = some type → yieldType.accepts type = true
  | .statement (.declare _ declared _ value _) =>
    ∀ type, symbols.typeOf? value = some type → declared.accepts type = true
  | _ => True

/-- Wherever the type is known of a value that initialises a variable, is handed out or decides
between branches, at any depth of blocks and branches, it is one that is accepted there. -/
theorem Body.build_typed {settings : Settings} {arity : Nat} {e : Expr} {body : Body}
    (done : Body.build settings arity e = .ok body) {id : NodeId} {node : Node}
    (present : body.graph.node? id = some node) : node.kind.Typed body.symbols body.yieldType := by
  obtain ⟨function, infos, s', route, literal, built⟩ := Body.build_ok done
  have lowering : ∀ other, e.function? = some other → Draft.Lowering
      (fun _ before after => before.Suitable function.yieldType →
        after.Suitable function.yieldType) ⟨settings.strict, other.yieldType⟩ := by
    intro other same
    obtain rfl := Option.some.inj (literal.symm.trans same)
    exact Draft.suitable_lowering ⟨settings.strict, function.yieldType⟩
  obtain ⟨_, draft, same, yields, suitable, nodes, symbols⟩ := Body.build_does lowering done
  obtain rfl := Option.some.inj (literal.symm.trans same)
  have suits := suitable (fun _ _ impossible => by cases impossible) id node (nodes id ▸ present)
  rw [← symbols, ← yields] at suits
  have known : ∀ {fits : DataType → Bool} {e : Expr}, body.symbols.Suits fits e → ∀ type,
      body.symbols.typeOf? e = some type → fits type = true :=
    fun suits _ => suits.typeOf? built.sound
  obtain ⟨site, declares, fits⟩ := built.laid.fragment built.fits (built.mem_ids present) present
  cases kind : node.kind with
  | branch condition merge =>
      rw [kind] at suits
      exact fun type infers => of_decide_eq_true (known suits type infers)
  | suspend payload =>
      rw [kind] at suits
      exact known suits
  | merge => trivial
  | statement s =>
      rw [kind] at suits fits
      cases s with
      | declare name declared mutable value location =>
          -- a declaration of its own always says which variable it declares
          have splits : node.declares ≠ none := by
            intro none_
            rcases fits.declares with ⟨impossible, _⟩ | ⟨_, _, _, made, _⟩
            · cases impossible
            · cases none_.symm.trans (declares.trans made)
          exact known (suits splits)
      | _ => trivial

/-- The condition of the branch and the payload of the first suspension are variables, whose types are
compared with the ones that are asked for. -/
theorem Body.build_typed_fork : ∃ body branch suspension,
    Body.build {} Source.fork.arity Source.fork.function = .ok body ∧
    (body.graph.node? 2 = some branch ∧ branch.kind = .branch (.reference "c" {}) 1 ∧
      body.symbols.typeOf? (.reference "c" {}) = some .bool ∧
      branch.kind.Typed body.symbols body.yieldType) ∧
    (body.graph.node? 3 = some suspension ∧ suspension.kind = .suspend (.reference "x" {}) ∧
      body.symbols.typeOf? (.reference "x" {}) = some .int ∧ body.yieldType = .int ∧
      suspension.kind.Typed body.symbols body.yieldType) := by
  have seen : ((Body.build {} Source.fork.arity Source.fork.function).map fun body =>
      (((body.graph.node? 2).map Node.kind, body.symbols.typeOf? (.reference "c" {})),
        ((body.graph.node? 3).map Node.kind, body.symbols.typeOf? (.reference "x" {})),
        body.yieldType)) =
      .ok ((some (.branch (.reference "c" {}) 1), some .bool),
        (some (.suspend (.reference "x" {})), some .int), .int) := by cbv
  cases done : Body.build {} Source.fork.arity Source.fork.function with
  | error => rw [done] at seen; cases seen
  | ok body =>
      rw [done] at seen
      have shown := Except.ok.inj seen
      simp only [Prod.mk.injEq] at shown
      obtain ⟨⟨atBranch, bool⟩, ⟨atSuspension, int⟩, yields⟩ := shown
      obtain ⟨branch, present, kind⟩ := Option.map_eq_some_iff.mp atBranch
      obtain ⟨suspension, present', kind'⟩ := Option.map_eq_some_iff.mp atSuspension
      exact ⟨body, branch, suspension, rfl, ⟨present, kind, bool, Body.build_typed done present⟩,
        ⟨present', kind', int, yields, Body.build_typed done present'⟩⟩

/-- A coroutine that assigns a Bool to an Int, hands out something else and then the Int. -/
def Source.mistyped : Source :=
  let hand (e : Expr) : Stmt := .evaluate (.suspend e {}) {}
  let x : Expr := .reference "x" {}
  { name := "mistyped"
    arity := 0
    function := .function [] .int (.block [.declare "x" .int true (.int 0 {}) {},
      .assign "x" (.literal (.bool true) {}) {}, hand (.int 1 {}), hand x] {}) {} }

/-- Nothing tests what is assigned. A literal of another type than that of the variable is accepted,
and the machine fails where it stores the variable. -/
theorem Body.build_assigns_untyped : ∃ lowered first failure,
    Source.mistyped.lower {} = .ok lowered ∧
    (∃ node info, lowered.body.graph.node? 1 = some node ∧
      node.kind = .statement (.assign "x" (.literal (.bool true) {}) {}) ∧
      lowered.body.symbols.resolve? node.scope "x" = some info ∧ info.type = .int ∧
      lowered.body.symbols.inferType? node.scope (.literal (.bool true) {}) = some .bool ∧
      info.type.accepts .bool = false) ∧
    Instance.start lowered.machine [] {} = .ok first ∧ first.resume.1 = .error failure ∧
    failure.fault = .run (.unpackable (.bool true) .intWord) := by
  have seen : ((Source.mistyped.lower {}).bind fun lowered =>
      (Instance.start lowered.machine [] {}).map fun first =>
        ((lowered.body.graph.node? 1).map fun node =>
          (node.kind, (lowered.body.symbols.resolve? node.scope "x").map Variable.type,
            lowered.body.symbols.inferType? node.scope (.literal (.bool true) {})),
          first.resume.1)) =
      .ok (some (.statement (.assign "x" (.literal (.bool true) {}) {}), some .int, some .bool),
        .error { fault := .run (.unpackable (.bool true) .intWord) }) := by cbv
  obtain ⟨lowered, first, done, started, same⟩ := Source.start_of_bind seen
  obtain ⟨shown, failed⟩ := Prod.mk.inj same
  obtain ⟨node, present, shape⟩ := Option.map_eq_some_iff.mp shown
  simp only [Prod.mk.injEq] at shape
  obtain ⟨kind, resolved, infers⟩ := shape
  obtain ⟨info, found, type⟩ := Option.map_eq_some_iff.mp resolved
  have rejects : info.type.accepts .bool = false := by rw [type]; rfl
  exact ⟨lowered, first, _, done, ⟨node, info, present, kind, found, type, infers, rejects⟩,
    started, failed, rfl⟩

end Resumable
