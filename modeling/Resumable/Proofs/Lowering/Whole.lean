import Resumable.Lowering.Whole
import Resumable.Proofs.Lowering.Growth

/-! Constructs that stay in one piece: every block inside has a scope of its own, here as in
evaluation, so the resolved statement is a renaming whatever stands in it. -/

namespace Resumable

open Symbols

theorem Symbols.Agrees.grown {scope : Nat} {before after : Symbols} {outer : List Naming}
    {inner : Naming} {names few : List String} {s s' : Stmt}
    (agrees : Agrees before scope outer inner names) (sound : before.Sound)
    (inside : scope < before.scopes.size)
    (grown : Grown scope before after s.declared? s'.declared?)
    (subset : ∀ other ∈ few, s.declared? ≠ some other → other ∈ names) :
    Agrees after scope outer (inner.after s s') few := by
  rw [Naming.after_eq]
  rcases grown.cases with ⟨source, target, sound', inner⟩ |
    ⟨name, type, mutable, info, source, target, declared⟩ <;> rw [source] at subset ⊢
  · have kept := agrees.around inner sound sound' (Nat.le_refl _) inside
    exact kept.mono fun other present => subset other present (by simp)
  · rw [target]
    refine agrees.declare sound declared fun other present apart => ?_
    exact subset other present fun same => apart (Option.some.inj same).symm

/-- A variable with the local name and the type of a declaration. -/
def Symbols.Makes (symbols : Symbols) (var : VarId) (made : String × DataType) : Prop :=
  ∃ info, symbols.variables.get? var = some info ∧ info.localName = made.1 ∧ info.type = made.2

theorem Symbols.Makes.extend {scope : ScopeId} {before after : Symbols} {var : VarId}
    {made : String × DataType} (makes : Makes before var made)
    (extends_ : Extends scope before after) : Makes after var made := by
  obtain ⟨info, found, same, type⟩ := makes
  exact ⟨info, extends_.kept var info found, same, type⟩

theorem Symbols.Makes.named {symbols : Symbols} {var : VarId} {made : String × DataType}
    (makes : Makes symbols var made) : Named symbols var made.1 := by
  obtain ⟨info, found, same, _⟩ := makes
  exact ⟨info, found, same⟩

/-- Declarations that each make a variable of their own, all of them numbered between two bounds. -/
structure Symbols.Making (symbols : Symbols) (first last : Nat) (made : List (String × DataType)) :
    Prop where
  grows : first ≤ last
  each : ∀ entry ∈ made, ∃ var : Nat, first ≤ var ∧ var < last ∧ Makes symbols var entry
  distinct : (made.map Prod.fst).Nodup

namespace Symbols.Making

variable {symbols after : Symbols} {first middle last : Nat} {made more : List (String × DataType)}

theorem nil (symbols : Symbols) (grows : first ≤ last) : Making symbols first last [] :=
  ⟨grows, by simp, .nil⟩

theorem extend {scope : ScopeId} (making : Making symbols first last made)
    (extends_ : Extends scope symbols after) : Making after first last made :=
  { making with
    each := fun entry member => by
      obtain ⟨var, low, high, makes⟩ := making.each entry member
      exact ⟨var, low, high, makes.extend extends_⟩ }

theorem widen (making : Making symbols first last made) {low high : Nat} (before : low ≤ first)
    (behind : last ≤ high) : Making symbols low high made where
  grows := Nat.le_trans before (Nat.le_trans making.grows behind)
  each := fun entry member => by
    obtain ⟨var, newer, older, makes⟩ := making.each entry member
    exact ⟨var, Nat.le_trans before newer, Nat.lt_of_lt_of_le older behind, makes⟩
  distinct := making.distinct

theorem append (sound : symbols.Sound) (early : Making symbols first middle made)
    (late : Making symbols middle last more) : Making symbols first last (made ++ more) where
  grows := Nat.le_trans early.grows late.grows
  each := by
    intro entry member
    rcases List.mem_append.mp member with here | here
    · obtain ⟨var, low, high, makes⟩ := early.each entry here
      exact ⟨var, low, Nat.lt_of_lt_of_le high late.grows, makes⟩
    · obtain ⟨var, low, high, makes⟩ := late.each entry here
      exact ⟨var, Nat.le_trans early.grows low, high, makes⟩
  distinct := by
    rw [List.map_append]
    refine List.nodup_append.mpr ⟨early.distinct, late.distinct, fun name here name' there same => ?_⟩
    obtain ⟨entry, member, rfl⟩ := List.mem_map.mp here
    obtain ⟨entry', member', rfl⟩ := List.mem_map.mp there
    obtain ⟨var, _, high, makes⟩ := early.each entry member
    obtain ⟨var', low, _, makes'⟩ := late.each entry' member'
    obtain rfl := makes.named.unique sound (same ▸ makes'.named)
    exact absurd (Nat.lt_of_lt_of_le high low) (Nat.lt_irrefl _)

end Symbols.Making

namespace Lower

/-- What resolving a piece of text finds: the variables it reads, those it makes, and that all it
assigns to may change. -/
structure Finding (scope : ScopeId) (before after : Symbols) (free : List String)
    (bound : List (String × DataType)) (targets : List String) (reads reads' : List VarId) :
    Prop where
  grows : reads ⊆ reads'
  distinct : reads.Nodup → reads'.Nodup
  visible : ∀ var : Nat, var ∈ reads' →
    var ∈ reads ∨ var ∈ before.scopes.visible scope ∨ before.variables.size ≤ var
  covered : ∀ name ∈ free, ∃ var ∈ reads', Named after var name
  mentioned : ∀ var : Nat, var ∈ reads' →
    var ∈ reads ∨ before.variables.size ≤ var ∨ ∃ name ∈ free, Named after var name
  bound : Making after before.variables.size after.variables.size bound
  targets : ∀ name ∈ targets, ∃ var info, after.variables.get? var = some info ∧
    info.localName = name ∧ info.mutable = true

namespace Finding

variable {scope child : Nat} {before middle after : Symbols}
  {free targets free' targets' few : List String} {bound bound' : List (String × DataType)}
  {reads reads' reads'' : List VarId}

theorem of_covers (covers : Covers before scope free reads reads') :
    Finding scope before before free [] [] reads reads' where
  grows := covers.grows
  distinct := covers.distinct
  visible := fun var present => (covers.visible var present).imp_right .inl
  covered := covers.covered
  mentioned := fun var present => (covers.mentioned var present).imp_right .inr
  bound := .nil _ (Nat.le_refl _)
  targets := by simp

theorem declare {name : String} {type : DataType} {mutable : Bool} {info : Variable}
    (covers : Covers before scope free reads reads')
    (declared : Declared scope name type mutable before info after) :
    Finding scope before after free [(info.localName, type)] [] reads reads' where
  grows := covers.grows
  distinct := covers.distinct
  visible := fun var present => (covers.visible var present).imp_right .inl
  covered := by
    intro name present
    obtain ⟨var, listed, named⟩ := covers.covered name present
    exact ⟨var, listed, named.extend declared.extends_⟩
  mentioned := by
    intro var present
    refine (covers.mentioned var present).imp_right fun ⟨name, here, named⟩ => ?_
    exact .inr ⟨name, here, named.extend declared.extends_⟩
  bound := by
    refine ⟨declared.extends_.count, fun entry member => ?_, List.nodup_singleton _⟩
    rw [List.mem_singleton.mp member]
    have makes : Makes after info.id (info.localName, type) :=
      ⟨info, declared.found, rfl, declared.type⟩
    exact ⟨info.id, Nat.le_of_eq declared.id.symm, makes.named.lt, makes⟩
  targets := by simp

theorem close (finding : Finding scope before after free bound targets reads reads')
    (sound : after.Sound) (subset : few ⊆ free)
    (closed : ∀ name ∈ free, name ∉ few →
      ∃ var : Nat, before.variables.size ≤ var ∧ Named after var name) :
    Finding scope before after few bound targets reads reads' :=
  { finding with
    covered := fun name present => finding.covered name (subset present)
    mentioned := by
      intro var present
      refine (finding.mentioned var present).imp_right fun found => ?_
      rcases found with new | ⟨name, listed, named⟩
      · exact .inl new
      · by_cases here : name ∈ few
        · exact .inr ⟨name, here, named⟩
        · obtain ⟨other, new, named'⟩ := closed name listed here
          exact .inl (named.unique sound named' ▸ new) }

/-- One piece of text after another, which sees no old variables that the first did not. -/
theorem append {scope' : ScopeId} (sound : after.Sound)
    (first : Finding scope before middle free bound targets reads reads')
    (second : Finding child middle after free' bound' targets' reads' reads'')
    (seen : ∀ var : Nat, var ∈ middle.scopes.visible child →
      var ∈ before.scopes.visible scope ∨ before.variables.size ≤ var)
    (extends_ : Extends scope' middle after) :
    Finding scope before after (free ++ free') (bound ++ bound') (targets ++ targets')
      reads reads'' where
  grows := List.Subset.trans first.grows second.grows
  distinct := second.distinct ∘ first.distinct
  visible := by
    intro var present
    rcases second.visible var present with old | here | new
    · exact first.visible var old
    · exact .inr (seen var here)
    · exact .inr (.inr (Nat.le_trans first.bound.grows new))
  covered := by
    intro name present
    rcases List.mem_append.mp present with here | here
    · obtain ⟨var, listed, named⟩ := first.covered name here
      exact ⟨var, second.grows listed, named.extend extends_⟩
    · exact second.covered name here
  mentioned := by
    intro var present
    rcases second.mentioned var present with old | new | ⟨name, here, named⟩
    · refine (first.mentioned var old).imp_right fun found => ?_
      refine found.imp_right fun ⟨name, here, named⟩ => ?_
      exact ⟨name, List.mem_append_left _ here, named.extend extends_⟩
    · exact .inr (.inl (Nat.le_trans first.bound.grows new))
    · exact .inr (.inr ⟨name, List.mem_append_right _ here, named⟩)
  bound := (first.bound.extend extends_).append sound second.bound
  targets := by
    intro name present
    rcases List.mem_append.mp present with here | here
    · obtain ⟨var, info, there, same, changes⟩ := first.targets name here
      exact ⟨var, info, extends_.kept var info there, same, changes⟩
    · exact second.targets name here

end Finding

variable {draft after : Draft} {scope child : Nat}

theorem openScope_ok {outer : Nat} {child : ScopeId} (sound : draft.symbols.Sound)
    (inside : outer < draft.symbols.scopes.size)
    (done : openScope outer draft = .ok (child, after)) :
    Opened outer draft.symbols child after.symbols ∧ after.graph = draft.graph := by
  cases done
  exact ⟨openScope_opened sound inside, rfl⟩

section Declare

variable {name : String} {type : DataType} {mutable parameter : Bool} {location : Location}
  {info : Variable}

theorem declare_symbols
    (done : declare scope name type mutable parameter location draft = .ok (info, after)) :
    draft.symbols.declare scope name type mutable parameter location = (.ok info, after.symbols) ∧
      after.graph = draft.graph := by
  unfold declare at done
  rcases outcome : draft.symbols.declare scope name type mutable parameter location with
    ⟨_ | found, symbols⟩ <;> simp only [outcome] at done
  · cases done
  · cases done
    exact ⟨rfl, rfl⟩

theorem declare_ok (sound : draft.symbols.Sound)
    (done : declare scope name type mutable parameter location draft = .ok (info, after)) :
    Declared scope name type mutable draft.symbols info after.symbols ∧
      after.graph = draft.graph := by
  obtain ⟨declared, graph⟩ := declare_symbols done
  exact ⟨declare_declared sound declared, graph⟩

end Declare

end Lower

open Lower

/-- A statement that was resolved as a whole. -/
structure Stmt.Wholly (scope : ScopeId) (s s' : Stmt) (reads reads' : List VarId)
    (before after : Draft) : Prop where
  graph : after.graph = before.graph
  grown : Grown scope before.symbols after.symbols s.declared? s'.declared?
  finding : Finding scope before.symbols after.symbols s'.free s'.declarations s'.targets reads reads'
  renamed : ∀ outer inner, Agrees before.symbols scope outer inner s.free →
    s.Renamed false outer inner s'

/-- Statements that were resolved one after the other. -/
structure Stmt.WhollyAll (scope : ScopeId) (body body' : List Stmt) (reads reads' : List VarId)
    (before after : Draft) : Prop where
  graph : after.graph = before.graph
  sound : after.symbols.Sound
  extends_ : Extends scope before.symbols after.symbols
  finding : Finding scope before.symbols after.symbols (Stmt.freeAll body')
    (Stmt.allDeclarations body') (Stmt.targetsAll body') reads reads'
  renamed : ∀ outer inner, Agrees before.symbols scope outer inner (Stmt.freeAll body) →
    Stmt.RenamedAll false outer inner body body'

/-- Text that was resolved in scopes of its own. `renamed` says in what way the resolved text is a
renaming. -/
structure Lower.Apart (scope : ScopeId) (free free' : List String)
    (bound' : List (String × DataType)) (targets' : List String) (renamed : List Naming → Prop)
    (reads reads' : List VarId) (before after : Draft) : Prop where
  graph : after.graph = before.graph
  sound : after.symbols.Sound
  extends_ : Extends before.symbols.scopes.size before.symbols after.symbols
  finding : Finding scope before.symbols after.symbols free' bound' targets' reads reads'
  renamed : ∀ outer inner, Agrees before.symbols scope outer inner free → renamed (inner :: outer)

variable {before middle after : Draft} {scope child : Nat} {reads reads' reads'' : List VarId}

theorem Lower.Finding.enter {symbols symbols' symbols'' : Symbols}
    {free targets : List String} {bound : List (String × DataType)}
    (opened : Opened scope symbols child symbols')
    (finding : Finding child symbols' symbols'' free bound targets reads reads') :
    Finding scope symbols symbols'' free bound targets reads reads' where
  grows := finding.grows
  distinct := finding.distinct
  visible := by
    have visible := finding.visible
    rw [opened.visible, opened.count] at visible
    exact visible
  covered := finding.covered
  mentioned := by
    have mentioned := finding.mentioned
    rw [opened.count] at mentioned
    exact mentioned
  bound := by
    have bound := finding.bound
    rw [opened.count] at bound
    exact bound
  targets := finding.targets

theorem Stmt.Wholly.apart {s s' : Stmt} (sound : before.symbols.Sound)
    (inside : scope < before.symbols.scopes.size)
    (opening : openScope scope before = .ok (child, middle))
    (inner : middle.symbols.Sound → child < middle.symbols.scopes.size →
      s.Wholly child s' reads reads' middle after) :
    Apart scope s.free s'.free s'.declarations s'.targets (fun namings => s.Renamed false namings [] s')
      reads reads' before after := by
  obtain ⟨opened, graph⟩ := openScope_ok sound inside opening
  have wholly := inner opened.sound opened.inside
  exact {
    graph := wholly.graph.trans graph
    sound := wholly.grown.sound
    extends_ := (opened.extends_ _).in_child wholly.grown.extends_ opened.new
    finding := wholly.finding.enter opened
    renamed := fun _ _ agrees => wholly.renamed _ _ (agrees.enter sound opened) }

theorem Stmt.WhollyAll.apart {body body' : List Stmt} (sound : before.symbols.Sound)
    (inside : scope < before.symbols.scopes.size)
    (opening : openScope scope before = .ok (child, middle))
    (inner : middle.symbols.Sound → child < middle.symbols.scopes.size →
      Stmt.WhollyAll child body body' reads reads' middle after) :
    Apart scope (Stmt.freeAll body) (Stmt.freeAll body') (Stmt.allDeclarations body')
      (Stmt.targetsAll body') (fun namings => Stmt.RenamedAll false namings [] body body')
      reads reads' before after := by
  obtain ⟨opened, graph⟩ := openScope_ok sound inside opening
  have wholly := inner opened.sound opened.inside
  exact {
    graph := wholly.graph.trans graph
    sound := wholly.sound
    extends_ := (opened.extends_ _).in_child wholly.extends_ opened.new
    finding := wholly.finding.enter opened
    renamed := fun _ _ agrees => wholly.renamed _ _ (agrees.enter sound opened) }

namespace Lower.Apart

variable {free free' targets more more' targets' : List String}
  {bound bound' : List (String × DataType)}
  {renamed renamed' : List Naming → Prop}

theorem append (sound : before.symbols.Sound) (inside : scope < before.symbols.scopes.size)
    (first : Apart scope free free' bound targets renamed reads reads' before middle)
    (second : Apart scope more more' bound' targets' renamed' reads' reads'' middle after) :
    Apart scope (free ++ more) (free' ++ more') (bound ++ bound') (targets ++ targets')
      (fun namings => renamed namings ∧ renamed' namings) reads reads'' before after where
  graph := second.graph.trans first.graph
  sound := second.sound
  extends_ := first.extends_.in_child second.extends_ first.extends_.sizes
  finding := by
    refine first.finding.append second.sound second.finding ?_ second.extends_
    intro var seen
    rw [first.extends_.visible_eq sound first.sound inside inside] at seen
    exact .inl seen
  renamed := by
    intro outer inner agrees
    have later := (agrees.mono (List.subset_append_right _ _)).around first.extends_ sound
      first.sound (Nat.le_refl _) inside
    exact ⟨first.renamed outer inner (agrees.mono (List.subset_append_left _ _)),
      second.renamed outer inner later⟩

theorem cons {e e' : Expr} (plain : e.requirePlain = .ok ())
    (resolved : Resolved before.symbols scope e e' reads reads')
    (symbols : middle.symbols = before.symbols) (graph : middle.graph = before.graph)
    (rest : Apart scope more more' bound targets renamed reads' reads'' middle after) :
    Apart scope (e.references ++ more) (e'.references ++ more') bound targets
      (fun namings => e.Renamed namings e' ∧ renamed namings) reads reads'' before after := by
  have quiet := Expr.requirePlain_ok plain
  have extends_ := rest.extends_
  have finding := rest.finding
  have later := rest.renamed
  rw [symbols] at extends_ finding later
  refine ⟨rest.graph.trans graph, rest.sound, extends_, ?_, ?_⟩
  · exact (Finding.of_covers resolved.covers).append rest.sound finding (fun _ => .inl) extends_
  · intro outer inner agrees
    exact ⟨resolved.renamed quiet.1 quiet.2 _ (agrees.finds.mono (List.subset_append_left _ _)),
      later outer inner (agrees.mono (List.subset_append_right _ _))⟩

end Lower.Apart

theorem Lower.Apart.wholly {s s' : Stmt} {renamed : List Naming → Prop}
    (apart : Apart scope s.free s'.free s'.declarations s'.targets renamed reads reads' before after)
    (none_ : s.declared? = none) (none_' : s'.declared? = none)
    (same : ∀ inner outer, renamed (inner :: outer) → s.Renamed false outer inner s') :
    s.Wholly scope s' reads reads' before after where
  graph := apart.graph
  grown := by
    rw [none_, none_']
    exact ⟨apart.sound, apart.extends_⟩
  finding := apart.finding
  renamed := fun outer inner agrees => same inner outer (apart.renamed outer inner agrees)

namespace Stmt.Wholly

variable {value value' : Expr} {location : Location}

theorem declare {name : String} {type : DataType} {mutable : Bool} {info : Variable}
    (plain : value.requirePlain = .ok ())
    (resolved : Resolved before.symbols scope value value' reads reads')
    (declared : Declared scope name type mutable before.symbols info after.symbols)
    (graph : after.graph = before.graph) :
    (Stmt.declare name type mutable value location).Wholly scope
      (.declare info.localName type mutable value' location) reads reads' before after where
  graph := graph
  grown := ⟨type, mutable, info, rfl, declared⟩
  finding := .declare resolved.covers declared
  renamed := by
    intro outer inner agrees
    have quiet := Expr.requirePlain_ok plain
    refine ⟨info.localName, value', resolved.renamed quiet.1 quiet.2 _ agrees.finds,
      agrees.here name declared.new, fun known => ?_, rfl⟩
    have taken := agrees.taken _ known
    rw [declared.fresh] at taken
    cases taken

theorem assign {target target' : String} (sound : before.symbols.Sound)
    (plain : value.requirePlain = .ok ())
    (targeted : Targeted before.symbols scope target target' reads reads')
    (resolved : Resolved before.symbols scope value value' reads' reads'')
    (symbols : after.symbols = before.symbols) (graph : after.graph = before.graph) :
    (Stmt.assign target value location).Wholly scope (.assign target' value' location) reads reads''
      before after where
  graph := graph
  grown := by
    rw [symbols]
    exact ⟨sound, .refl _ _⟩
  finding := by
    rw [symbols]
    refine { Finding.of_covers (targeted.covers.append resolved.covers) with targets := ?_ }
    intro name present
    rw [List.mem_singleton.mp present]
    exact targeted.mutable
  renamed := by
    intro outer inner agrees
    have quiet := Expr.requirePlain_ok plain
    refine ⟨target', value', targeted.finds _ (agrees.finds.mono ?_),
      resolved.renamed quiet.1 quiet.2 _ (agrees.finds.mono (List.subset_cons_self _ _)), rfl⟩
    simp [Stmt.free]

theorem evaluate (sound : before.symbols.Sound) (plain : value.requirePlain = .ok ())
    (resolved : Resolved before.symbols scope value value' reads reads')
    (symbols : after.symbols = before.symbols) (graph : after.graph = before.graph) :
    (Stmt.evaluate value location).Wholly scope (.evaluate value' location) reads reads'
      before after where
  graph := graph
  grown := by
    rw [symbols]
    exact ⟨sound, .refl _ _⟩
  finding := by
    rw [symbols]
    exact .of_covers resolved.covers
  renamed := by
    intro outer inner agrees
    have quiet := Expr.requirePlain_ok plain
    exact .inl ⟨value', resolved.renamed quiet.1 quiet.2 _ agrees.finds, rfl⟩

end Stmt.Wholly

theorem Stmt.WhollyAll.nil (sound : before.symbols.Sound) (scope : Nat) (reads : List VarId) :
    Stmt.WhollyAll scope [] [] reads reads before before where
  graph := rfl
  sound := sound
  extends_ := .refl _ _
  finding := .of_covers (.none reads)
  renamed := fun _ _ _ => rfl

theorem Stmt.WhollyAll.cons {s s' : Stmt} {rest rest' : List Stmt} (sound : before.symbols.Sound)
    (inside : scope < before.symbols.scopes.size)
    (first : s.Wholly scope s' reads reads' before middle)
    (others : Stmt.WhollyAll scope rest rest' reads' reads'' middle after) :
    Stmt.WhollyAll scope (s :: rest) (s' :: rest') reads reads'' before after where
  graph := others.graph.trans first.graph
  sound := others.sound
  extends_ := first.grown.extends_.trans others.extends_
  finding := by
    have seen : ∀ var : Nat, var ∈ middle.symbols.scopes.visible scope →
        var ∈ before.symbols.scopes.visible scope ∨ before.symbols.variables.size ≤ var :=
      fun var => first.grown.extends_.visible_old sound first.grown.sound inside
    refine (first.finding.append others.sound others.finding seen others.extends_).close
      others.sound ?_ ?_
    · intro name present
      rcases List.mem_append.mp present with here | here
      · exact List.mem_append_left _ here
      · exact List.mem_append_right _ (List.mem_of_mem_filter here)
    · intro name present apart
      rcases List.mem_append.mp present with here | here
      · exact absurd (List.mem_append_left _ here) apart
      · have declared : s'.declared? = some name := by
          by_contra other
          refine apart (List.mem_append_right _ (List.mem_filter.mpr ⟨here, ?_⟩))
          simpa using other
        obtain ⟨var, new, named⟩ := (declared ▸ first.grown).makes
        exact ⟨var, new, named.extend others.extends_⟩
  renamed := by
    intro outer inner agrees
    refine ⟨s', rest', first.renamed outer inner (agrees.mono (List.subset_append_left _ _)),
      others.renamed outer _ (agrees.grown sound inside first.grown ?_), rfl⟩
    intro other present apart
    exact List.mem_append_right _ (List.mem_filter.mpr ⟨present, by simpa using apart⟩)

mutual

theorem Stmt.resolveWhole_ok (s : Stmt) {s' : Stmt} {before after : Draft} {scope : Nat}
    {reads reads' : List VarId} (sound : before.symbols.Sound)
    (inside : scope < before.symbols.scopes.size)
    (done : s.resolveWhole scope reads before = .ok ((s', reads'), after)) :
    s.Wholly scope s' reads reads' before after := by
  match s with
  | .declare name type mutable value location =>
      obtain ⟨_, plain, done⟩ := check_ok done
      obtain ⟨⟨value', _⟩, middle, inValue, done⟩ := bind_ok done
      obtain ⟨info, _, made, done⟩ := bind_ok done
      obtain ⟨equal, rfl⟩ := pure_ok done
      cases equal
      obtain ⟨resolved, symbols, graph⟩ := resolve_ok sound inValue
      obtain ⟨declared, graph'⟩ := declare_ok (symbols ▸ sound) made
      exact .declare plain resolved (symbols ▸ declared) (graph'.trans graph)
  | .assign target value location =>
      obtain ⟨_, plain, done⟩ := check_ok done
      obtain ⟨⟨target', _⟩, _, inTarget, done⟩ := bind_ok done
      obtain ⟨⟨value', _⟩, middle, inValue, done⟩ := bind_ok done
      obtain ⟨equal, rfl⟩ := pure_ok done
      cases equal
      obtain ⟨targeted, rfl⟩ := resolveTarget_ok sound inTarget
      obtain ⟨resolved, symbols, graph⟩ := resolve_ok sound inValue
      exact .assign sound plain targeted resolved symbols graph
  | .evaluate value location =>
      obtain ⟨_, plain, done⟩ := check_ok done
      obtain ⟨⟨value', _⟩, middle, inValue, done⟩ := bind_ok done
      obtain ⟨equal, rfl⟩ := pure_ok done
      cases equal
      obtain ⟨resolved, symbols, graph⟩ := resolve_ok sound inValue
      exact .evaluate sound plain resolved symbols graph
  | .branch condition thenBranch none location =>
      obtain ⟨_, plain, done⟩ := check_ok done
      obtain ⟨⟨condition', _⟩, middle, inCondition, done⟩ := bind_ok done
      obtain ⟨thenScope, _, opening, done⟩ := bind_ok done
      obtain ⟨⟨then', _⟩, _, inThen, done⟩ := bind_ok done
      obtain ⟨equal, rfl⟩ := pure_ok done
      cases equal
      obtain ⟨resolved, symbols, graph⟩ := resolve_ok sound inCondition
      have first := Stmt.Wholly.apart (symbols ▸ sound) (symbols ▸ inside) opening
        fun sound inside => thenBranch.resolveWhole_ok sound inside inThen
      refine (Apart.cons plain resolved symbols graph first).wholly rfl rfl ?_
      rintro inner outer ⟨test, body⟩
      exact ⟨condition', then', test, body, rfl⟩
  | .branch condition thenBranch (some elseBranch) location =>
      obtain ⟨_, plain, done⟩ := check_ok done
      obtain ⟨⟨condition', _⟩, middle, inCondition, done⟩ := bind_ok done
      obtain ⟨thenScope, _, opening, done⟩ := bind_ok done
      obtain ⟨⟨then', _⟩, _, inThen, done⟩ := bind_ok done
      obtain ⟨elseScope, _, opening', done⟩ := bind_ok done
      obtain ⟨⟨else', _⟩, _, inElse, done⟩ := bind_ok done
      obtain ⟨equal, rfl⟩ := pure_ok done
      cases equal
      obtain ⟨resolved, symbols, graph⟩ := resolve_ok sound inCondition
      have sound' : middle.symbols.Sound := symbols ▸ sound
      have inside' : scope < middle.symbols.scopes.size := symbols ▸ inside
      have first := Stmt.Wholly.apart sound' inside' opening
        fun sound inside => thenBranch.resolveWhole_ok sound inside inThen
      have second := Stmt.Wholly.apart first.sound
        (Nat.lt_of_lt_of_le inside' first.extends_.sizes) opening'
        fun sound inside => elseBranch.resolveWhole_ok sound inside inElse
      refine (Apart.cons plain resolved symbols graph
        (first.append sound' inside' second)).wholly rfl rfl ?_
      rintro inner outer ⟨test, body, body'⟩
      exact ⟨condition', then', else', test, body, body', rfl⟩
  | .block body location =>
      obtain ⟨blockScope, _, opening, done⟩ := bind_ok done
      obtain ⟨⟨body', _⟩, _, inBody, done⟩ := bind_ok done
      obtain ⟨equal, rfl⟩ := pure_ok done
      cases equal
      have first := Stmt.WhollyAll.apart sound inside opening
        fun sound inside => Stmt.resolveAll_ok body sound inside inBody
      exact first.wholly rfl rfl fun inner outer all => ⟨body', all, rfl⟩
  | .loop condition body location =>
      obtain ⟨_, plain, done⟩ := check_ok done
      obtain ⟨⟨condition', _⟩, middle, inCondition, done⟩ := bind_ok done
      obtain ⟨bodyScope, _, opening, done⟩ := bind_ok done
      obtain ⟨⟨body', _⟩, _, inBody, done⟩ := bind_ok done
      obtain ⟨equal, rfl⟩ := pure_ok done
      cases equal
      obtain ⟨resolved, symbols, graph⟩ := resolve_ok sound inCondition
      have first := Stmt.Wholly.apart (symbols ▸ sound) (symbols ▸ inside) opening
        fun sound inside => body.resolveWhole_ok sound inside inBody
      refine (Apart.cons plain resolved symbols graph first).wholly rfl rfl ?_
      rintro inner outer ⟨test, rounds⟩
      exact ⟨condition', body', test, rounds, rfl⟩
  | .select scrutinee arms location =>
      obtain ⟨_, plain, done⟩ := check_ok done
      obtain ⟨⟨scrutinee', _⟩, middle, inScrutinee, done⟩ := bind_ok done
      obtain ⟨⟨arms', _⟩, _, inArms, done⟩ := bind_ok done
      obtain ⟨equal, rfl⟩ := pure_ok done
      cases equal
      obtain ⟨resolved, symbols, graph⟩ := resolve_ok sound inScrutinee
      have chosen := Arm.resolveAll_ok arms (symbols ▸ sound) (symbols ▸ inside) inArms
      refine (Apart.cons plain resolved symbols graph chosen).wholly rfl rfl ?_
      rintro inner outer ⟨value, all⟩
      exact ⟨scrutinee', arms', value, all, rfl⟩
  | .attempt body handler location =>
      obtain ⟨bodyScope, _, opening, done⟩ := bind_ok done
      obtain ⟨⟨body', _⟩, _, inBody, done⟩ := bind_ok done
      obtain ⟨handlerScope, _, opening', done⟩ := bind_ok done
      obtain ⟨⟨handler', _⟩, _, inHandler, done⟩ := bind_ok done
      obtain ⟨equal, rfl⟩ := pure_ok done
      cases equal
      have first := Stmt.Wholly.apart sound inside opening
        fun sound inside => body.resolveWhole_ok sound inside inBody
      have second := Stmt.Wholly.apart first.sound
        (Nat.lt_of_lt_of_le inside first.extends_.sizes) opening'
        fun sound inside => handler.resolveWhole_ok sound inside inHandler
      refine (first.append sound inside second).wholly rfl rfl ?_
      rintro inner outer ⟨attempted, handled⟩
      exact ⟨body', handler', attempted, handled, rfl⟩

theorem Stmt.resolveAll_ok (body : List Stmt) {body' : List Stmt} {before after : Draft}
    {scope : Nat} {reads reads' : List VarId} (sound : before.symbols.Sound)
    (inside : scope < before.symbols.scopes.size)
    (done : Stmt.resolveAll scope reads body before = .ok ((body', reads'), after)) :
    Stmt.WhollyAll scope body body' reads reads' before after := by
  match body with
  | [] =>
      obtain ⟨equal, rfl⟩ := pure_ok done
      cases equal
      exact .nil sound scope reads
  | s :: rest =>
      obtain ⟨⟨s', _⟩, middle, inFirst, done⟩ := bind_ok done
      obtain ⟨⟨rest', _⟩, _, inRest, done⟩ := bind_ok done
      obtain ⟨equal, rfl⟩ := pure_ok done
      cases equal
      have first := s.resolveWhole_ok sound inside inFirst
      have others := Stmt.resolveAll_ok rest first.grown.sound
        (Nat.lt_of_lt_of_le inside first.grown.extends_.sizes) inRest
      exact .cons sound inside first others

theorem Arm.resolveAll_ok (arms : List Arm) {arms' : List Arm} {before after : Draft}
    {scope : Nat} {reads reads' : List VarId} (sound : before.symbols.Sound)
    (inside : scope < before.symbols.scopes.size)
    (done : Arm.resolveAll scope reads arms before = .ok ((arms', reads'), after)) :
    Apart scope (Arm.freeAll arms) (Arm.freeAll arms') (Arm.allDeclarations arms')
      (Arm.targetsAll arms')
      (fun namings => Arm.RenamedAll namings arms arms') reads reads' before after := by
  match arms with
  | [] =>
      obtain ⟨equal, rfl⟩ := pure_ok done
      cases equal
      exact ⟨rfl, sound, .refl _ _, .of_covers (.none reads), fun _ _ _ => rfl⟩
  | .mk none body :: rest =>
      obtain ⟨armScope, _, opening, done⟩ := bind_ok done
      obtain ⟨⟨body', _⟩, middle, inBody, done⟩ := bind_ok done
      obtain ⟨⟨rest', _⟩, _, inRest, done⟩ := bind_ok done
      obtain ⟨equal, rfl⟩ := pure_ok done
      cases equal
      have first := Stmt.Wholly.apart sound inside opening
        fun sound inside => body.resolveWhole_ok sound inside inBody
      have others := Arm.resolveAll_ok rest first.sound
        (Nat.lt_of_lt_of_le inside first.extends_.sizes) inRest
      have both := first.append sound inside others
      refine { both with renamed := fun outer inner agrees => ?_ }
      obtain ⟨one, all⟩ := both.renamed outer inner agrees
      exact ⟨body', rest', one, all, rfl⟩
  | .mk (some pattern) body :: rest =>
      obtain ⟨_, plain, done⟩ := check_ok done
      obtain ⟨⟨pattern', _⟩, tested, inPattern, done⟩ := bind_ok done
      obtain ⟨armScope, _, opening, done⟩ := bind_ok done
      obtain ⟨⟨body', _⟩, middle, inBody, done⟩ := bind_ok done
      obtain ⟨⟨rest', _⟩, _, inRest, done⟩ := bind_ok done
      obtain ⟨equal, rfl⟩ := pure_ok done
      cases equal
      obtain ⟨resolved, symbols, graph⟩ := resolve_ok sound inPattern
      have sound' : tested.symbols.Sound := symbols ▸ sound
      have inside' : scope < tested.symbols.scopes.size := symbols ▸ inside
      have first := Stmt.Wholly.apart sound' inside' opening
        fun sound inside => body.resolveWhole_ok sound inside inBody
      have others := Arm.resolveAll_ok rest first.sound
        (Nat.lt_of_lt_of_le inside' first.extends_.sizes) inRest
      have both := Apart.cons plain resolved symbols graph (first.append sound' inside' others)
      refine { both with renamed := fun outer inner agrees => ?_ }
      obtain ⟨test, one, all⟩ := both.renamed outer inner agrees
      exact ⟨pattern', body', rest', test, one, all, rfl⟩

end

end Resumable
