import Resumable.Proofs.Lowering.Pieces
import Resumable.Proofs.Program.Exposed
import Resumable.Proofs.Route.Flow

/-! What lowering a statement gives: a piece of graph in which a route lies that runs as the
statement does, once every name is replaced by the local name of its variable. -/

namespace Resumable

open Symbols Lower

/-- A statement that was lowered, with its resolved form and the route that it became. -/
structure Stmt.Lowers (scope : ScopeId) (s s' : Stmt) (piece : Piece) (route : Route)
    (before after : Draft) : Prop where
  lays : Lays scope before after piece route
  grown : Grown scope before.symbols after.symbols s.exposes? s'.exposes?
  declared : (s.declared? = none ∧ s'.declared? = none) ∨
    (s.declared? = s.exposes? ∧ s'.declared? = s'.exposes?)
  renamed : s.contained = true → ∀ outer inner,
    Agrees before.symbols scope outer inner s.free → s.Renamed true outer inner s'
  flows : s'.Flows route

variable {before middle after : Draft} {scope : Nat}

theorem Stmt.Lowers.agrees {s s' : Stmt} {piece : Piece} {route : Route} {outer : List Naming}
    {inner : Naming} {names few : List String} (lowers : s.Lowers scope s' piece route before after)
    (sound : before.symbols.Sound) (inside : scope < before.symbols.scopes.size)
    (agrees : Agrees before.symbols scope outer inner names)
    (subset : ∀ other ∈ few, s.declared? ≠ some other → other ∈ names)
    (unused : ∀ name, s.leaks? = some name → name ∉ few) :
    Agrees after.symbols scope outer (inner.after s s') few := by
  rcases lowers.declared with ⟨source, target⟩ | ⟨source, target⟩
  · rw [Naming.after_eq, source]
    have fewer := agrees.mono fun other present => subset other present (by simp [source])
    rw [Stmt.leaks?_eq source] at unused
    rcases lowers.grown.cases with ⟨_, _, sound', inner⟩ |
      ⟨name, type, mutable, info, exposed, _, declared⟩
    · exact fewer.around inner sound sound' (Nat.le_refl _) inside
    · exact fewer.leak sound inside declared (unused name exposed)
  · have grown := lowers.grown
    rw [← source, ← target] at grown
    exact agrees.grown sound inside grown subset

section Leaves

theorem Stmt.Wholly.footprint {s s' : Stmt} {reads : List VarId} (sound : before.symbols.Sound)
    (wholly : s.Wholly scope s' [] reads before after) :
    Footprint after.symbols s'.free
      (reads.filter fun var => var < before.symbols.variables.size) where
  covered := by
    intro name present
    obtain ⟨var, listed, named⟩ := wholly.finding.covered name present
    obtain ⟨namings, agrees⟩ := Agrees.exists_namings sound scope s.free
    have known := Stmt.Renamed.free_mem s (wholly.renamed namings [] agrees) name present
    obtain ⟨old, named'⟩ := isTaken_iff_named.mp (agrees.taken name known)
    have same := named.unique wholly.grown.sound (named'.extend wholly.grown.extends_)
    exact ⟨var, List.mem_filter.mpr ⟨listed, decide_eq_true (same ▸ named'.lt)⟩, named⟩
  mentioned := by
    intro var listed
    obtain ⟨found, old⟩ := List.mem_filter.mp listed
    rcases wholly.finding.mentioned var found with impossible | new | named
    · cases impossible
    · exact absurd (of_decide_eq_true old) (Nat.not_lt.mpr new)
    · exact named
  distinct := (wholly.finding.distinct .nil).filter _

theorem Stmt.Wholly.lowers {s s' : Stmt} {reads few : List VarId} {declares : Option VarId}
    {piece : Piece} (sound : before.symbols.Sound) (open_ : Open scope before.symbols)
    (wholly : s.Wholly scope s' [] reads before middle)
    (exposes : s.exposes? = s.declared? ∧ s'.exposes? = s'.declared?)
    (declared : ∀ name, s'.declared? = some name → ∃ var, declares = some var ∧
      Named middle.symbols var name ∧ before.symbols.variables.size ≤ (var : Nat))
    (none_ : s'.declared? = none → declares = none)
    (fewer : few = reads.filter fun var => var < before.symbols.variables.size)
    (loud : ∀ outer inner, s.Renamed false outer inner s' → s.Renamed true outer inner s')
    (flows : ∀ site, s'.Flows (.plain site (some s') .stop))
    (done : statementPiece s' scope few declares middle = .ok (piece, after)) :
    ∃ route, s.Lowers scope s' piece route before after := by
  obtain ⟨id, _, made, done⟩ := bind_ok done
  obtain ⟨equal, rfl⟩ := pure_ok done
  have grown := wholly.grown
  have visible : ∀ var ∈ few, var ∈ before.symbols.scopes.visible scope := by
    intro var listed
    obtain ⟨read, old⟩ := List.mem_filter.mp (fewer ▸ listed)
    rcases wholly.finding.visible var read with impossible | seen | new
    · cases impossible
    · exact seen
    · exact absurd (of_decide_eq_true old) (Nat.not_lt.mpr new)
  have seen := grown.visible sound open_.inside fun name exposed =>
    (declared name exposed).imp fun _ both => ⟨both.1, both.2.1⟩
  have fresh : ∀ var : Nat, var ∈ declares →
      before.symbols.variables.size ≤ var ∧ var < middle.symbols.variables.size := by
    intro var made
    cases name? : s'.declared? with
    | none => simp [none_ name?] at made
    | some name =>
        obtain ⟨other, found, named, new⟩ := declared name name?
        have same : var = other := by
          rw [found] at made
          exact (Option.some.inj made).symm
        exact ⟨same ▸ new, same ▸ named.lt⟩
  have added : Added scope before after ⟨id, scope, few, declares,
      before.symbols.scopes.visible scope, before.symbols.variables.size,
      middle.symbols.variables.size⟩ (Route.plainKind (some s')) :=
    added_of_addNode sound open_ grown.sound grown.extends_ wholly.graph seen fresh visible made
  obtain ⟨_, _, _, _, uid, symbols⟩ := addNode_site made [] 0 0
  have fits : s'.Fits after.symbols ⟨id, scope, few, declares,
      before.symbols.scopes.visible scope, before.symbols.variables.size,
      middle.symbols.variables.size⟩ := by
    rw [symbols]
    refine Stmt.Fits.extend ((Extends.refl scope middle.symbols).recount uid)
      ⟨fewer ▸ wholly.footprint sound, ?_, wholly.finding.bound, wholly.finding.targets, ?_⟩
    · obtain ⟨namings, agrees⟩ := Agrees.exists_namings sound scope s.free
      exact ⟨s, namings, [], wholly.renamed namings [] agrees⟩
    · cases name? : s'.declared? with
      | none => exact .inl ⟨rfl, none_ name?⟩
      | some name =>
          obtain ⟨var, found, named, _⟩ := declared name name?
          exact .inr ⟨var, name, rfl, found, named⟩
  subst equal
  have lays := added.plain ⟨added.fits, fits, trivial⟩
  refine ⟨_, lays, ?_, .inr ⟨exposes.1.symm, exposes.2.symm⟩,
    fun _ outer inner agrees => loud outer inner (wholly.renamed outer inner agrees), flows _⟩
  rw [exposes.1, exposes.2, symbols]
  exact grown.recount uid

theorem unitPiece_ok {location : Location} {piece : Piece} (sound : before.symbols.Sound)
    (open_ : Open scope before.symbols)
    (done : unitPiece scope location before = .ok (piece, after)) :
    ∃ route, (Stmt.unit location).Lowers scope (.unit location) piece route before after := by
  have wholly : (Stmt.unit location).Wholly scope (.unit location) [] [] before before :=
    ⟨rfl, ⟨sound, .refl _ _⟩, .of_covers (.none []), fun outer inner _ =>
      .inl ⟨Expr.unit location, ⟨rfl, rfl, rfl⟩, rfl⟩⟩
  refine wholly.lowers sound open_ ⟨rfl, rfl⟩ (fun name impossible => by cases impossible)
    (fun _ => rfl) rfl (fun _ _ renamed => ?_) (fun site => ⟨site, rfl⟩) done
  rcases renamed with plain | ⟨impossible, _⟩
  · exact .inl plain
  · cases impossible

theorem suspension_ok {context : LoweringContext} {payload : Expr} {mark : Mark}
    {location : Location} {piece : Piece} (sound : before.symbols.Sound)
    (open_ : Open scope before.symbols)
    (done : suspension context payload scope location before = .ok (piece, after)) :
    ∃ payload' route, (Stmt.evaluate (.suspend payload mark) location).Lowers scope
      (.evaluate (.suspend payload' mark) location) piece route before after := by
  obtain ⟨_, plain, done⟩ := check_ok done
  obtain ⟨_, _, got, done⟩ := bind_ok done
  cases got
  obtain ⟨_, _, done⟩ := check_ok done
  obtain ⟨⟨payload', reads⟩, middle, inPayload, done⟩ := bind_ok done
  obtain ⟨id, _, made, done⟩ := bind_ok done
  obtain ⟨equal, rfl⟩ := pure_ok done
  obtain ⟨resolved, symbols, graph⟩ := resolve_ok sound inPayload
  obtain ⟨quiet, pure_⟩ := Expr.requirePlain_ok plain
  have visible : ∀ var ∈ reads, var ∈ before.symbols.scopes.visible scope := by
    intro var listed
    rcases resolved.covers.visible var listed with impossible | seen
    · cases impossible
    · exact seen
  obtain ⟨_, _, _, _, uid, counted⟩ := addNode_site made [] 0 0
  rw [symbols] at counted
  have added : Added scope before after ⟨id, scope, reads, none,
      before.symbols.scopes.visible scope, before.symbols.variables.size,
      middle.symbols.variables.size⟩ (.suspend payload') := by
    refine added_of_addNode sound open_ (symbols ▸ sound) (symbols ▸ .refl _ _) graph ?_
      (by simp) visible made
    rw [symbols]
    exact fun _ seen => seen
  have fits : payload'.Fits after.symbols reads := by
    rw [counted]
    refine Expr.Fits.extend ((Extends.refl scope before.symbols).recount uid)
      ⟨resolved.covers.footprint, ?_⟩
    obtain ⟨namings, agrees⟩ := Agrees.exists_namings sound scope payload.references
    exact ⟨payload, _, resolved.renamed quiet pure_ _ agrees.finds⟩
  have lays := added.suspend ⟨added.fits, rfl, fits, trivial⟩
  subst equal
  refine ⟨payload', _, lays, ?_, .inl ⟨rfl, rfl⟩, ?_, ⟨_, rfl⟩⟩
  · rw [counted]
    exact ⟨sound.recount uid, (Extends.refl _ before.symbols).recount uid⟩
  · intro _ outer inner agrees
    exact .inr ⟨rfl, payload, mark, payload', rfl, resolved.renamed quiet pure_ _ agrees.finds, rfl⟩

end Leaves

section Branches

/-- What opening a branch gives: the merge and the fork, in this order, and a resolved condition. -/
structure Forked (scope : Nat) (condition condition' : Expr) (fork merge : Nat)
    (reads : List VarId) (before after : Draft) : Prop where
  plain : condition.requirePlain = .ok ()
  resolved : Resolved before.symbols scope condition condition' [] reads
  mergeId : merge = before.graph.size
  forkId : fork = before.graph.size + 1
  size : after.graph.size = before.graph.size + 2
  old : ∀ id : Nat, id < before.graph.size → after.graph.node? id = before.graph.node? id
  atFork : ∀ known first last, Site.At ⟨fork, scope, reads, none, known, first, last⟩ after.graph
    (.branch condition' merge) []
  atMerge : ∀ known first last, Site.At ⟨merge, scope, [], none, known, first, last⟩ after.graph
    .merge []
  symbols : ∃ uid, after.symbols = before.symbols.recount uid

theorem openBranch_ok {condition : Expr} {location : Location} {fork merge : Nat}
    (sound : before.symbols.Sound)
    (done : openBranch condition scope location before = .ok ((fork, merge), after)) :
    ∃ condition' reads, Forked scope condition condition' fork merge reads before after := by
  obtain ⟨_, plain, done⟩ := check_ok done
  obtain ⟨_, _, got, done⟩ := bind_ok done
  cases got
  obtain ⟨_, _, done⟩ := check_ok done
  obtain ⟨⟨condition', reads⟩, middle, inCondition, done⟩ := bind_ok done
  obtain ⟨merge', merged, toMerge, done⟩ := bind_ok done
  obtain ⟨fork', _, toFork, done⟩ := bind_ok done
  obtain ⟨equal, rfl⟩ := pure_ok done
  cases equal
  obtain ⟨resolved, symbols, graph⟩ := resolve_ok sound inCondition
  obtain ⟨_, merge_, size, old, uid, counted⟩ := addNode_site toMerge [] 0 0
  obtain ⟨_, fork_, size', old', uid', counted'⟩ := addNode_site toFork [] 0 0
  rw [graph] at merge_ size old
  have inside : (merge : Nat) < merged.graph.size := by
    rw [merge_, size]
    exact Nat.lt_succ_self _
  refine ⟨condition', reads, plain, resolved, merge_, fork_.trans size, by omega, ?_, ?_, ?_, uid',
    ?_⟩
  · intro id below
    rw [old' id (by omega), old id below]
  · exact fun known first last => (addNode_site toFork known first last).1
  · intro known first last
    obtain ⟨node, present, is⟩ := (addNode_site toMerge known first last).1
    exact ⟨node, (old' merge inside).trans present, is⟩
  · rw [counted', counted, symbols]
    rfl

namespace Forked

variable {opened thenDraft elseDraft : Draft} {condition condition' : Expr}
  {fork merge : Nat} {reads : List VarId} {thenPiece elsePiece : Piece}
  {thenRoute elseRoute : Route}

theorem sound (forked : Forked scope condition condition' fork merge reads before opened)
    (sound : before.symbols.Sound) : opened.symbols.Sound := by
  obtain ⟨uid, counted⟩ := forked.symbols
  exact counted ▸ sound.recount uid

theorem open_ (forked : Forked scope condition condition' fork merge reads before opened)
    (open_ : Open scope before.symbols) : Open scope opened.symbols := by
  obtain ⟨uid, counted⟩ := forked.symbols
  exact counted ▸ open_.recount uid

theorem distinct (forked : Forked scope condition condition' fork merge reads before opened)
    (inThen : Lays scope opened thenDraft thenPiece thenRoute)
    (inElse : Lays scope thenDraft elseDraft elsePiece elseRoute) :
    (fork :: (thenRoute.ids ++ (elseRoute.ids ++ [merge]))).Nodup := by
  have size := forked.size
  have sizeThen := inThen.size
  have newThen : ∀ id : Nat, id ∈ thenRoute.ids → before.graph.size + 2 ≤ id ∧
      id < thenDraft.graph.size := by
    intro id member
    have inside := inThen.window id member
    omega
  have newElse : ∀ id : Nat, id ∈ elseRoute.ids → before.graph.size + 2 ≤ id ∧
      thenDraft.graph.size ≤ id := by
    intro id member
    have inside := inElse.window id member
    omega
  have atMerge : ∀ id : Nat, id ∈ [merge] → id = before.graph.size := fun id member =>
    (List.mem_singleton.mp member).trans forked.mergeId
  refine List.nodup_cons.mpr ⟨?_, List.nodup_append.mpr ⟨inThen.distinct,
    List.nodup_append.mpr ⟨inElse.distinct, List.nodup_singleton _, ?_⟩, ?_⟩⟩
  · have forkId := forked.forkId
    have mergeId := forked.mergeId
    intro member
    simp only [List.mem_append, List.mem_singleton] at member
    rcases member with member | member | same
    · have inside := newThen fork member
      omega
    · have inside := newElse fork member
      omega
    · omega
  · intro id member other member' same
    have equal := atMerge id (same ▸ member')
    have inside := newElse id member
    omega
  · intro id member other member' same
    have inside := newThen id member
    rcases List.mem_append.mp member' with here | here
    · have inside' := newElse id (same ▸ here)
      omega
    · have equal := atMerge id (same ▸ here)
      omega

theorem laid {graph : Graph}
    (forked : Forked scope condition condition' fork merge reads before opened)
    (inThen : Lays scope opened thenDraft thenPiece thenRoute)
    (inElse : Lays scope thenDraft elseDraft elsePiece elseRoute)
    (joined : Joined elseDraft.graph graph fork merge thenPiece elsePiece)
    (known : List VarId) (count total : Nat) :
    Route.Laid graph none (.branch ⟨fork, scope, reads, none, known, count, count⟩ condition'
      thenRoute elseRoute (.plain ⟨merge, scope, [], none, known, total, total⟩ none .stop)) := by
  obtain ⟨notFork, distinct⟩ := List.nodup_cons.mp (forked.distinct inThen inElse)
  obtain ⟨_, distinctElse, apartThen⟩ := List.nodup_append.mp distinct
  obtain ⟨_, _, apartElse⟩ := List.nodup_append.mp distinctElse
  simp only [List.mem_append, List.mem_singleton, not_or] at notFork
  obtain ⟨forkThen, forkElse, forkMerge⟩ := notFork
  have lastThen := Route.mem_ids_of_last? inThen.last
  have lastElse := Route.mem_ids_of_last? inElse.last
  have thenElse : ∀ {id}, id ∈ thenRoute.ids → id ∉ elseRoute.ids := fun {id} member member' =>
    apartThen id member id (List.mem_append_left _ member') rfl
  have size := forked.size
  have sizeThen := inThen.size
  have kept : ∀ id : Nat, id < opened.graph.size →
      elseDraft.graph.node? id = opened.graph.node? id := by
    intro id below
    rw [inElse.old id (Nat.lt_of_lt_of_le below sizeThen), inThen.old id below]
  refine ⟨merge, thenPiece.first, elsePiece.first, rfl, inThen.entry, inElse.entry, ?_, ?_, ?_, ?_,
    trivial⟩
  · refine joined.atFork (fun same => forkThen (same ▸ lastThen))
      (fun same => forkElse (same ▸ lastElse)) rfl ?_
    obtain ⟨node, present, is⟩ := forked.atFork known count count
    have inside : (fork : Nat) < opened.graph.size := by
      rw [forked.forkId, size]
      exact Nat.lt_succ_self _
    exact ⟨node, (kept fork inside).trans present, is⟩
  · exact joined.laidFirst inThen.distinct forkThen (fun member => thenElse member lastElse)
      inThen.last (inThen.laid.congr fun id member => inElse.old id (inThen.window id member).2)
  · exact joined.laidSecond inElse.distinct forkElse (thenElse lastThen) inElse.last inElse.laid
  · obtain ⟨node, present, is⟩ := forked.atMerge known total total
    have inside : (merge : Nat) < opened.graph.size := by
      rw [forked.mergeId, size]
      exact Nat.lt_succ_of_lt (Nat.lt_succ_self _)
    have apart : merge ≠ thenPiece.last := fun same =>
      apartThen _ lastThen merge (by simp) same.symm
    have apart' : merge ≠ elsePiece.last := fun same =>
      apartElse _ lastElse merge (by simp) same.symm
    refine ⟨node, ?_, is⟩
    exact (joined.others merge (Ne.symm forkMerge) apart apart').trans
      ((kept merge inside).trans present)

/-- How the symbols grew while two branches were lowered: by scopes of their own. -/
structure Grew (scope : Nat) (before thenDraft elseDraft : Draft) : Prop where
  soundThen : thenDraft.symbols.Sound
  soundElse : elseDraft.symbols.Sound
  extendsThen : Extends before.symbols.scopes.size before.symbols thenDraft.symbols
  extendsElse : Extends thenDraft.symbols.scopes.size thenDraft.symbols elseDraft.symbols
  visibleThen : thenDraft.symbols.scopes.visible scope = before.symbols.scopes.visible scope
  visibleElse : elseDraft.symbols.scopes.visible scope = before.symbols.scopes.visible scope

theorem grew (forked : Forked scope condition condition' fork merge reads before opened)
    (sound : before.symbols.Sound) (inside : scope < before.symbols.scopes.size)
    (soundThen : thenDraft.symbols.Sound) (soundElse : elseDraft.symbols.Sound)
    (extendsThen : Extends opened.symbols.scopes.size opened.symbols thenDraft.symbols)
    (extendsElse : Extends thenDraft.symbols.scopes.size thenDraft.symbols elseDraft.symbols) :
    Grew scope before thenDraft elseDraft := by
  obtain ⟨uid, counted⟩ := forked.symbols
  have early : Extends before.symbols.scopes.size before.symbols opened.symbols :=
    counted ▸ (Extends.refl _ before.symbols).recount uid
  have first := early.in_child extendsThen early.sizes
  have both := first.in_child extendsElse first.sizes
  exact ⟨soundThen, soundElse, first, extendsElse, first.visible_eq sound soundThen inside inside,
    both.visible_eq sound soundElse inside inside⟩

theorem leads (forked : Forked scope condition condition' fork merge reads before opened)
    (sound : before.symbols.Sound)
    (inThen : Lays scope opened thenDraft thenPiece thenRoute)
    (inElse : Lays scope thenDraft elseDraft elsePiece elseRoute)
    (grew : Grew scope before thenDraft elseDraft) :
    Route.Leads (before.symbols.context scope) (.branch ⟨fork, scope, reads, none,
      before.symbols.scopes.visible scope, before.symbols.variables.size,
      before.symbols.variables.size⟩ condition' thenRoute elseRoute (.plain ⟨merge, scope, [], none,
      before.symbols.scopes.visible scope, elseDraft.symbols.variables.size,
      elseDraft.symbols.variables.size⟩ none .stop)) (elseDraft.symbols.context scope) := by
  obtain ⟨uid, counted⟩ := forked.symbols
  have start : opened.symbols.context scope = before.symbols.context scope := by
    rw [counted]
    rfl
  have leadsThen := inThen.leads
  have leadsElse := inElse.leads
  rw [start] at leadsThen
  have behindThen : thenDraft.symbols.context scope =
      ⟨before.symbols.scopes.visible scope, thenDraft.symbols.variables.size⟩ := by
    rw [Symbols.context, grew.visibleThen]
  have behindElse : elseDraft.symbols.context scope =
      ⟨before.symbols.scopes.visible scope, elseDraft.symbols.variables.size⟩ := by
    rw [Symbols.context, grew.visibleElse]
  rw [behindThen] at leadsThen leadsElse
  rw [behindElse] at leadsElse ⊢
  have visible : ∀ var ∈ reads, var ∈ before.symbols.scopes.visible scope := by
    intro var listed
    rcases forked.resolved.covers.visible var listed with impossible | seen
    · cases impossible
    · exact seen
  have older : ∀ var : Nat, var ∈ before.symbols.scopes.visible scope →
      var < before.symbols.variables.size := fun _ => lt_of_mem_visible sound
  have count := grew.extendsThen.count
  have count' := grew.extendsElse.count
  refine ⟨⟨fun _ seen => seen, Nat.le_refl _, Nat.le_refl _, older, by simp, visible⟩,
    elseDraft.symbols.variables.size, ?_, ?_, ⟨fun _ seen => seen, Nat.le_refl _, Nat.le_refl _,
    fun var seen => ?_, by simp, by simp⟩, fun _ seen => seen, Nat.le_refl _⟩
  · exact leadsThen.forget (fun _ seen => seen) count'
  · exact leadsElse.weaken (fun _ seen => seen) count
  · exact Nat.lt_of_lt_of_le (older var seen) (Nat.le_trans count count')

theorem lays {piece : Piece} (sound : before.symbols.Sound) (open_ : Open scope before.symbols)
    (forked : Forked scope condition condition' fork merge reads before opened)
    (inThen : Lays scope opened thenDraft thenPiece thenRoute)
    (inElse : Lays scope thenDraft elseDraft elsePiece elseRoute)
    (grew : Grew scope before thenDraft elseDraft)
    (done : joinBranches fork merge thenPiece elsePiece elseDraft = .ok (piece, after)) :
    ∃ forkSite mergeSite, Lays scope before after piece
      (.branch forkSite condition' thenRoute elseRoute (.plain mergeSite none .stop)) := by
  obtain ⟨rfl, symbols, joined⟩ := joinBranches_ok done
  obtain ⟨quiet, pure_⟩ := Expr.requirePlain_ok forked.plain
  have extends_ := grew.extendsThen.in_child grew.extendsElse grew.extendsThen.sizes
  have lastThen := inThen.window _ (Route.mem_ids_of_last? inThen.last)
  have lastElse := inElse.window _ (Route.mem_ids_of_last? inElse.last)
  have mergeId := forked.mergeId
  have forkId := forked.forkId
  have size := forked.size
  have sizeThen := inThen.size
  have sizeElse := inElse.size
  refine ⟨_, _, ?_, ?_, rfl, rfl, ?_, ?_, forked.laid inThen inElse joined _ _ _,
    symbols ▸ forked.leads sound inThen inElse grew, ?_, ?_⟩
  · simp only [joined.size, inElse.count, inThen.count, size, Route.ids_branch, Route.ids_plain,
      Route.ids_stop, List.length_cons, List.length_append, List.length_nil]
    omega
  · intro id below
    have notFork : id ≠ fork := by omega
    have notThen : id ≠ thenPiece.last := Nat.ne_of_lt (by omega)
    have notElse : id ≠ elsePiece.last := Nat.ne_of_lt (by omega)
    rw [joined.others id notFork notThen notElse, inElse.old id (by omega),
      inThen.old id (by omega), forked.old id below]
  · exact Route.ids_branch .. ▸ forked.distinct inThen inElse
  · intro id member
    rw [Route.ids_branch] at member
    rw [joined.size]
    simp only [List.mem_cons, List.mem_append] at member
    rcases member with rfl | member | member | member
    · omega
    · have inside := inThen.window id member
      omega
    · have inside := inElse.window id member
      omega
    · have same : id = merge := by simpa [Route.ids, Route.sites] using member
      omega
  · rw [symbols]
    refine ⟨site_fits sound grew.soundElse open_ extends_ rfl, rfl, ?_,
      inThen.fits.extend grew.extendsElse grew.soundThen grew.soundElse, inElse.fits,
      site_fits sound grew.soundElse open_ extends_ rfl, ⟨rfl, rfl⟩, trivial⟩
    refine Expr.Fits.extend extends_ ⟨forked.resolved.covers.footprint, ?_⟩
    obtain ⟨namings, agrees⟩ := Agrees.exists_namings sound scope condition.references
    exact ⟨condition, _, forked.resolved.renamed quiet pure_ _ agrees.finds⟩
  · obtain ⟨uid, counted⟩ := forked.symbols
    have first := inThen.makes.extend grew.extendsElse
    have second := inElse.makes
    rw [counted] at first
    rw [symbols]
    simp only [Route.declarations, List.append_nil]
    exact first.append grew.soundElse second

end Forked
end Branches

section Statements

theorem Stmt.Lowers.congr {s s' : Stmt} {piece : Piece} {route : Route}
    (lowers : s.Lowers scope s' piece route middle after) (graph : middle.graph = before.graph)
    (symbols : middle.symbols = before.symbols) : s.Lowers scope s' piece route before after := by
  obtain ⟨⟨count, old, entry, last, distinct, window, laid, leads, fits, makes⟩, grown, declared,
    renamed, flows⟩ := lowers
  rw [graph] at count old window
  rw [symbols] at leads makes grown renamed
  exact ⟨⟨count, old, entry, last, distinct, window, laid, leads, fits, makes⟩, grown, declared,
    renamed, flows⟩

theorem Covers.filter_lt {symbols : Symbols} {names : List String} {reads : List VarId}
    (sound : symbols.Sound) (covers : Covers symbols scope names [] reads) :
    reads = reads.filter fun var => var < symbols.variables.size := by
  refine (List.filter_eq_self.mpr fun var listed => decide_eq_true ?_).symm
  rcases covers.visible var listed with impossible | seen
  · cases impossible
  · exact lt_of_mem_visible sound seen

theorem whole_ok {context : LoweringContext} {construct : Construct} {s : Stmt} {piece : Piece}
    (done : whole context construct s scope before = .ok (piece, after)) :
    ∃ s' reads warned middle, warned.graph = before.graph ∧ warned.symbols = before.symbols ∧
      s.resolveWhole scope [] warned = .ok ((s', reads), middle) ∧
      statementPiece s' scope
        (reads.filter fun var => var < before.symbols.variables.size) none middle =
          .ok (piece, after) := by
  unfold whole at done
  split at done
  · cases done
  · split at done
    · cases done
    · obtain ⟨_, warned, warning, done⟩ := bind_ok done
      cases warning
      obtain ⟨_, _, got, done⟩ := bind_ok done
      cases got
      obtain ⟨⟨s', reads⟩, middle, inside, done⟩ := bind_ok done
      exact ⟨s', reads, { before with
        warnings := before.warnings ++ [⟨.keptWhole construct, s.location⟩] }, middle, rfl, rfl,
        inside, done⟩

theorem Stmt.whole_quiet {s : Stmt} (isWhole : s.construct?.isSome) :
    s.declared? = none ∧ s.exposes? = none ∧ ∀ site, s.Flows (.plain site (some s) .stop) := by
  cases s with
  | loop | select | attempt => exact ⟨rfl, rfl, fun site => ⟨site, rfl⟩⟩
  | _ => cases isWhole

theorem Stmt.Renamed.whole {s s' : Stmt} {outer : List Naming} {inner : Naming}
    (isWhole : s.construct?.isSome) (renamed : s.Renamed false outer inner s') :
    s.Renamed true outer inner s' ∧ s'.construct?.isSome := by
  cases s with
  | loop =>
      obtain ⟨condition', body', test, rounds, rfl⟩ := renamed
      exact ⟨⟨condition', body', test, rounds, rfl⟩, rfl⟩
  | select =>
      obtain ⟨scrutinee', arms', value, all, rfl⟩ := renamed
      exact ⟨⟨scrutinee', arms', value, all, rfl⟩, rfl⟩
  | attempt =>
      obtain ⟨body', handler', attempted, handled, rfl⟩ := renamed
      exact ⟨⟨body', handler', attempted, handled, rfl⟩, rfl⟩
  | _ => cases isWhole

theorem Stmt.lowers_of_whole {context : LoweringContext} {construct : Construct} {s : Stmt}
    {piece : Piece} (sound : before.symbols.Sound) (open_ : Open scope before.symbols)
    (isWhole : s.construct?.isSome)
    (done : whole context construct s scope before = .ok (piece, after)) :
    ∃ s' route, s.Lowers scope s' piece route before after := by
  obtain ⟨s', reads, warned, middle, graph, symbols, inside, done⟩ := whole_ok done
  have sound' : warned.symbols.Sound := symbols ▸ sound
  have open' : Open scope warned.symbols := symbols ▸ open_
  have wholly := s.resolveWhole_ok sound' open'.inside inside
  obtain ⟨namings, agrees⟩ := Agrees.exists_namings sound' scope s.free
  have isWhole' := (Stmt.Renamed.whole isWhole (wholly.renamed namings [] agrees)).2
  obtain ⟨none_, exposes, _⟩ := Stmt.whole_quiet isWhole
  obtain ⟨none_', exposes', flows⟩ := Stmt.whole_quiet isWhole'
  obtain ⟨route, lowers⟩ := wholly.lowers sound' open' ⟨exposes.trans none_.symm,
    exposes'.trans none_'.symm⟩ (fun name impossible => by rw [none_'] at impossible; cases impossible)
    (fun _ => rfl) (by rw [symbols]) (fun _ _ renamed => (Stmt.Renamed.whole isWhole renamed).1)
    flows done
  exact ⟨s', route, lowers.congr graph symbols⟩

/-- Statements that were lowered one after the other behind a piece. -/
structure Stmt.LowersAll (scope : ScopeId) (rest rest' : List Stmt) (piece : Piece)
    (route tail : Route) (start before after : Draft) : Prop where
  lays : Lays scope start after piece (route ++ tail)
  sound : after.symbols.Sound
  extends_ : Extends scope before.symbols after.symbols
  length : rest'.length = rest.length
  renamed : Stmt.containedAll rest = true → ∀ outer inner,
    Agrees before.symbols scope outer inner (Stmt.freeAll rest) →
    Stmt.RenamedAll true outer inner rest rest'
  flows : Stmt.FlowsAll rest' tail

theorem Stmt.LowersAll.cons {s s' : Stmt} {rest rest' : List Stmt} {piece piece' : Piece}
    {route first tail : Route} {start linked : Draft} (sound : before.symbols.Sound)
    (inside : scope < before.symbols.scopes.size)
    (lowers : s.Lowers scope s' piece' first before middle)
    (symbols : linked.symbols = middle.symbols)
    (all : Stmt.LowersAll scope rest rest' piece (route ++ first) tail start linked after) :
    Stmt.LowersAll scope (s :: rest) (s' :: rest') piece route (first ++ tail) start before after where
  lays := Route.append_assoc .. ▸ all.lays
  sound := all.sound
  extends_ := lowers.grown.extends_.trans (symbols ▸ all.extends_)
  length := congrArg (· + 1) all.length
  renamed := by
    intro contained outer inner agrees
    obtain ⟨here, unused, further⟩ := Stmt.containedAll_cons.mp contained
    have later := lowers.agrees sound inside agrees
      (fun other present apart => List.mem_append_right _
        (List.mem_filter.mpr ⟨present, by simpa using apart⟩)) unused
    exact ⟨s', rest', lowers.renamed here outer inner (agrees.mono (List.subset_append_left _ _)),
      all.renamed further outer _ (symbols ▸ later), rfl⟩
  flows := ⟨first, tail, lowers.flows, all.flows, rfl⟩

theorem Stmt.Lowers.only {s s' : Stmt} {piece : Piece} {route : Route} (location : Location)
    (lowers : s.Lowers scope s' piece route before after) :
    (Stmt.block [s] location).Lowers scope (.block [s'] location) piece route before after where
  lays := lowers.lays
  grown := lowers.grown
  declared := .inl ⟨rfl, rfl⟩
  renamed := by
    intro contained outer inner agrees
    obtain ⟨here, _, _⟩ := Stmt.containedAll_cons.mp contained
    have inner' := (agrees.mono (List.subset_append_left s.free [])).push
    exact ⟨[s'], ⟨s', [], lowers.renamed here _ _ inner', rfl, rfl⟩, rfl⟩
  flows := ⟨route, .stop, lowers.flows, rfl, (Route.append_stop route).symm⟩

theorem Stmt.LowersAll.block {first first' : Stmt} {rest rest' : List Stmt} {child : Nat}
    {opened : Draft} {piece piece' : Piece} {route tail : Route} (location : Location)
    (sound : before.symbols.Sound) (inside : scope < before.symbols.scopes.size)
    (long : rest.isEmpty = false)
    (opening : Opened scope before.symbols child opened.symbols)
    (graph : opened.graph = before.graph)
    (lowers : first.Lowers child first' piece' route opened middle)
    (all : Stmt.LowersAll child rest rest' piece route tail opened middle after) :
    (Stmt.block (first :: rest) location).Lowers scope (.block (first' :: rest') location) piece
      (route ++ tail) before after := by
  have long' : rest'.isEmpty = false := by
    rw [List.isEmpty_eq_false_iff, ← List.length_pos_iff] at long ⊢
    rw [all.length]
    exact long
  have hidden : ∀ {s : Stmt} {more : List Stmt}, more.isEmpty = false →
      (Stmt.block (s :: more) location).exposes? = none := by
    intro s more some_
    cases more with
    | nil => cases some_
    | cons => rfl
  have extends_ := lowers.grown.extends_.trans all.extends_
  have quiet := (opening.extends_ before.symbols.scopes.size).in_child extends_ opening.new
  refine ⟨all.lays.leave sound inside opening graph all.sound extends_, ?_, .inl ⟨rfl, rfl⟩, ?_,
    ⟨route, tail, lowers.flows, all.flows, rfl⟩⟩
  · rw [hidden long, hidden long']
    exact ⟨all.sound, quiet⟩
  · intro contained outer inner agrees
    obtain ⟨here, unused, further⟩ := Stmt.containedAll_cons.mp contained
    have entered := agrees.enter sound opening
    have later := lowers.agrees opening.sound opening.inside entered
      (fun other present apart => List.mem_append_right _
        (List.mem_filter.mpr ⟨present, by simpa using apart⟩)) unused
    exact ⟨first' :: rest', ⟨first', rest', lowers.renamed here _ _
      (entered.mono (List.subset_append_left _ _)), all.renamed further _ _ later, rfl⟩, rfl⟩

/-- A piece that was lowered in a scope opened for it. -/
structure Stmt.LowersIn (scope : Nat) (s s' : Stmt) (piece : Piece) (route : Route)
    (before after : Draft) : Prop where
  lays : Lays scope before after piece route
  sound : after.symbols.Sound
  extends_ : Extends before.symbols.scopes.size before.symbols after.symbols
  renamed : s.contained = true → ∀ outer inner,
    Agrees before.symbols scope outer inner s.free → s.Renamed true (inner :: outer) [] s'
  flows : s'.Flows route

theorem Stmt.Lowers.leave {s s' : Stmt} {piece : Piece} {route : Route} {child : Nat}
    {opened : Draft} (sound : before.symbols.Sound) (inside : scope < before.symbols.scopes.size)
    (opening : Opened scope before.symbols child opened.symbols)
    (graph : opened.graph = before.graph)
    (lowers : s.Lowers child s' piece route opened after) :
    s.LowersIn scope s' piece route before after where
  lays := lowers.lays.leave sound inside opening graph lowers.grown.sound lowers.grown.extends_
  sound := lowers.grown.sound
  extends_ := (opening.extends_ _).in_child lowers.grown.extends_ opening.new
  renamed := fun contained _ _ agrees =>
    lowers.renamed contained _ _ (agrees.enter sound opening)
  flows := lowers.flows

/-- Between a fork and its merge, the second branch sees the names that the first one saw. -/
theorem Forked.agrees {opened thenDraft : Draft} {condition condition' : Expr} {fork merge : Nat}
    {reads : List VarId} {outer : List Naming} {inner : Naming} {first second : List String}
    (forked : Forked scope condition condition' fork merge reads before opened)
    (sound : before.symbols.Sound) (inside : scope < before.symbols.scopes.size)
    (soundThen : thenDraft.symbols.Sound)
    (extendsThen : Extends opened.symbols.scopes.size opened.symbols thenDraft.symbols)
    (agrees : Agrees before.symbols scope outer inner
      (condition.references ++ (first ++ second))) :
    condition.Renamed (inner :: outer) condition' ∧
      Agrees opened.symbols scope outer inner first ∧
      Agrees thenDraft.symbols scope outer inner second := by
  obtain ⟨uid, counted⟩ := forked.symbols
  obtain ⟨quiet, pure_⟩ := Expr.requirePlain_ok forked.plain
  have early : Extends before.symbols.scopes.size before.symbols opened.symbols :=
    counted ▸ (Extends.refl _ before.symbols).recount uid
  have soundOpened := forked.sound sound
  have rest := agrees.mono (List.subset_append_right _ _)
  have later := rest.around early sound soundOpened (Nat.le_refl _) inside
  have inside' := Nat.lt_of_lt_of_le inside early.sizes
  have last := later.around extendsThen soundOpened soundThen (Nat.le_refl _) inside'
  exact ⟨forked.resolved.renamed quiet pure_ _ (agrees.finds.mono (List.subset_append_left _ _)),
    later.mono (List.subset_append_left _ _), last.mono (List.subset_append_right _ _)⟩

end Statements
end Resumable
