import Resumable.Proofs.Lowering.Statement

/-! Lowering whole bodies. -/

namespace Resumable

open Symbols Lower

section Simple

variable {before after : Draft} {scope : Nat} {context : LoweringContext} {piece : Piece}

theorem Stmt.lower_declare {name : String} {type : DataType} {mutable : Bool} {value : Expr}
    {location : Location} (sound : before.symbols.Sound) (open_ : Open scope before.symbols)
    (done : (Stmt.declare name type mutable value location).lower context scope before =
      .ok (piece, after)) :
    ∃ s' route, (Stmt.declare name type mutable value location).Lowers scope s' piece route
      before after := by
  obtain ⟨_, plain, done⟩ := check_ok done
  obtain ⟨_, _, got, done⟩ := bind_ok done
  cases got
  obtain ⟨_, _, done⟩ := check_ok done
  obtain ⟨⟨value', reads⟩, resolving, inValue, done⟩ := bind_ok done
  obtain ⟨info, middle, made, done⟩ := bind_ok done
  have whole : (Stmt.declare name type mutable value location).resolveWhole scope [] before =
      .ok ((.declare info.localName type mutable value' location, reads), middle) := by
    rw [Stmt.resolveWhole, check_eq plain, bind_eq inValue]
    exact bind_eq made
  obtain ⟨resolved, symbols, _⟩ := resolve_ok sound inValue
  obtain ⟨declared, _⟩ := declare_ok (symbols ▸ sound) made
  rw [symbols] at declared
  have wholly := Stmt.resolveWhole_ok _ sound open_.inside whole
  obtain ⟨route, lowers⟩ := wholly.lowers sound open_ ⟨rfl, rfl⟩
    (fun name found => ⟨info.id, rfl, ⟨info, declared.found, Option.some.inj found⟩,
      Nat.le_of_eq declared.id.symm⟩)
    (fun impossible => by cases impossible) (resolved.covers.filter_lt sound)
    (fun _ _ renamed => renamed) (fun site => ⟨site, rfl⟩) done
  exact ⟨_, route, lowers⟩

theorem Stmt.lower_assign {target : String} {value : Expr} {location : Location}
    (sound : before.symbols.Sound) (open_ : Open scope before.symbols)
    (done : (Stmt.assign target value location).lower context scope before = .ok (piece, after)) :
    ∃ s' route, (Stmt.assign target value location).Lowers scope s' piece route before after := by
  obtain ⟨_, plain, done⟩ := check_ok done
  obtain ⟨⟨target', first⟩, aimed, inTarget, done⟩ := bind_ok done
  obtain ⟨⟨value', reads⟩, middle, inValue, placed⟩ := bind_ok done
  have whole : (Stmt.assign target value location).resolveWhole scope [] before =
      .ok ((.assign target' value' location, reads), middle) := by
    rw [Stmt.resolveWhole, check_eq plain, bind_eq inTarget]
    exact bind_eq inValue
  obtain ⟨targeted, same⟩ := resolveTarget_ok sound inTarget
  subst same
  obtain ⟨resolved, _, _⟩ := resolve_ok sound inValue
  have wholly := Stmt.resolveWhole_ok _ sound open_.inside whole
  obtain ⟨route, lowers⟩ := wholly.lowers sound open_ ⟨rfl, rfl⟩
    (fun name impossible => by cases impossible) (fun _ => rfl)
    ((targeted.covers.append resolved.covers).filter_lt sound) (fun _ _ renamed => renamed)
    (fun site => ⟨site, rfl⟩) placed
  exact ⟨_, route, lowers⟩

theorem Stmt.lower_evaluate {value : Expr} {location : Location} (sound : before.symbols.Sound)
    (open_ : Open scope before.symbols)
    (done : (Stmt.evaluate value location).lower context scope before = .ok (piece, after)) :
    ∃ s' route, (Stmt.evaluate value location).Lowers scope s' piece route before after := by
  cases payload? : value.payload? with
  | some payload =>
      cases value with
      | suspend inner mark =>
          obtain ⟨payload', route, lowers⟩ := suspension_ok sound open_ done
          exact ⟨_, route, lowers⟩
      | _ => cases payload?
  | none =>
      rw [Stmt.lower, payload?] at done
      obtain ⟨_, plain, done⟩ := check_ok done
      obtain ⟨⟨value', reads⟩, middle, inValue, done⟩ := bind_ok done
      have whole : (Stmt.evaluate value location).resolveWhole scope [] before =
          .ok ((.evaluate value' location, reads), middle) := by
        rw [Stmt.resolveWhole, check_eq plain]
        exact bind_eq inValue
      obtain ⟨resolved, _, _⟩ := resolve_ok sound inValue
      obtain ⟨quiet, pure_⟩ := Expr.requirePlain_ok plain
      have wholly := Stmt.resolveWhole_ok _ sound open_.inside whole
      have calm : value'.payload? = none := by
        obtain ⟨namings, agrees⟩ := Agrees.exists_namings sound scope value.references
        exact (resolved.renamed quiet pure_ _ agrees.finds).payload?.2
      obtain ⟨route, lowers⟩ := wholly.lowers sound open_ ⟨rfl, rfl⟩
        (fun name impossible => by cases impossible) (fun _ => rfl) (resolved.covers.filter_lt sound)
        (fun _ _ renamed => renamed.imp_right fun impossible => by cases impossible.1)
        (fun site => by
          cases value' with
          | suspend => cases calm
          | _ => exact ⟨site, rfl⟩) done
      exact ⟨_, route, lowers⟩

end Simple

section Branch

variable {before opened thenDraft elseDraft after : Draft} {scope : Nat}
  {condition condition' : Expr} {fork merge : Nat} {reads : List VarId} {thenBranch then' : Stmt}
  {thenPiece elsePiece piece : Piece} {thenRoute elseRoute : Route} {location : Location}

theorem Stmt.lowers_branch_some {elseBranch else' : Stmt} (sound : before.symbols.Sound)
    (open_ : Open scope before.symbols)
    (forked : Forked scope condition condition' fork merge reads before opened)
    (inThen : thenBranch.LowersIn scope then' thenPiece thenRoute opened thenDraft)
    (inElse : elseBranch.LowersIn scope else' elsePiece elseRoute thenDraft elseDraft)
    (done : joinBranches fork merge thenPiece elsePiece elseDraft = .ok (piece, after)) :
    ∃ s' route, (Stmt.branch condition thenBranch (some elseBranch) location).Lowers scope s' piece
      route before after := by
  have grew := forked.grew sound open_.inside inThen.sound inElse.sound inThen.extends_
    inElse.extends_
  obtain ⟨forkSite, mergeSite, lays⟩ := forked.lays sound open_ inThen.lays inElse.lays grew done
  obtain ⟨_, symbols, _⟩ := joinBranches_ok done
  refine ⟨.branch condition' then' (some else') location, _, lays, ?_, .inl ⟨rfl, rfl⟩, ?_,
    ⟨forkSite, mergeSite, thenRoute, elseRoute, inThen.flows, inElse.flows, rfl⟩⟩
  · rw [symbols]
    exact ⟨inElse.sound, grew.extendsThen.in_child grew.extendsElse grew.extendsThen.sizes⟩
  · intro contained outer inner agrees
    have both := Bool.and_eq_true_iff.mp contained
    obtain ⟨test, first, second⟩ := forked.agrees sound open_.inside inThen.sound inThen.extends_
      agrees
    exact ⟨condition', then', else', test, inThen.renamed both.1 outer inner first,
      inElse.renamed both.2 outer inner second, rfl⟩

theorem Stmt.lowers_branch_none (sound : before.symbols.Sound) (open_ : Open scope before.symbols)
    (forked : Forked scope condition condition' fork merge reads before opened)
    (inThen : thenBranch.LowersIn scope then' thenPiece thenRoute opened thenDraft)
    (inElse : (Stmt.unit location).LowersIn scope (.unit location) elsePiece elseRoute thenDraft
      elseDraft)
    (done : joinBranches fork merge thenPiece elsePiece elseDraft = .ok (piece, after)) :
    ∃ s' route, (Stmt.branch condition thenBranch none location).Lowers scope s' piece route
      before after := by
  have grew := forked.grew sound open_.inside inThen.sound inElse.sound inThen.extends_
    inElse.extends_
  obtain ⟨forkSite, mergeSite, lays⟩ := forked.lays sound open_ inThen.lays inElse.lays grew done
  obtain ⟨_, symbols, _⟩ := joinBranches_ok done
  obtain ⟨skip, rfl⟩ := inElse.flows
  refine ⟨.branch condition' then' none location, _, lays, ?_, .inl ⟨rfl, rfl⟩, ?_,
    ⟨forkSite, skip, mergeSite, thenRoute, inThen.flows, rfl⟩⟩
  · rw [symbols]
    exact ⟨inElse.sound, grew.extendsThen.in_child grew.extendsElse grew.extendsThen.sizes⟩
  · intro contained outer inner agrees
    have all : condition.references ++ (thenBranch.free ++ []) ⊆
        (Stmt.branch condition thenBranch none location).free := by
      simp [Stmt.free]
    obtain ⟨test, first, _⟩ := forked.agrees sound open_.inside inThen.sound inThen.extends_
      (agrees.mono all)
    exact ⟨condition', then', test, inThen.renamed contained outer inner first, rfl⟩

end Branch

mutual

theorem Stmt.lower_ok (context : LoweringContext) (s : Stmt) {before after : Draft} {scope : Nat}
    {piece : Piece} (sound : before.symbols.Sound) (open_ : Open scope before.symbols)
    (done : s.lower context scope before = .ok (piece, after)) :
    ∃ s' route, s.Lowers scope s' piece route before after := by
  match s with
  | .declare .. => exact Stmt.lower_declare sound open_ done
  | .assign .. => exact Stmt.lower_assign sound open_ done
  | .evaluate .. => exact Stmt.lower_evaluate sound open_ done
  | .branch condition thenBranch none location =>
      obtain ⟨⟨fork, merge⟩, opened, forking, done⟩ := bind_ok done
      obtain ⟨thenScope, _, openThen, done⟩ := bind_ok done
      obtain ⟨thenPiece, thenDraft, inThen, done⟩ := bind_ok done
      obtain ⟨elseScope, _, openElse, done⟩ := bind_ok done
      obtain ⟨elsePiece, elseDraft, inElse, done⟩ := bind_ok done
      obtain ⟨condition', reads, forked⟩ := openBranch_ok sound forking
      have openFork := forked.open_ open_
      obtain ⟨openedThen, graphThen⟩ := openScope_ok (forked.sound sound) openFork.inside openThen
      obtain ⟨then', thenRoute, lowersThen⟩ := thenBranch.lower_ok context openedThen.sound
        (openedThen.open_ openFork) inThen
      have first := lowersThen.leave (forked.sound sound) openFork.inside openedThen graphThen
      have openMiddle := openFork.around first.extends_ (forked.sound sound) first.sound
        (Nat.le_refl _)
      obtain ⟨openedElse, graphElse⟩ := openScope_ok first.sound openMiddle.inside openElse
      obtain ⟨elseRoute, lowersElse⟩ := unitPiece_ok openedElse.sound
        (openedElse.open_ openMiddle) inElse
      have second := lowersElse.leave first.sound openMiddle.inside openedElse graphElse
      exact Stmt.lowers_branch_none sound open_ forked first second done
  | .branch condition thenBranch (some elseBranch) location =>
      obtain ⟨⟨fork, merge⟩, opened, forking, done⟩ := bind_ok done
      obtain ⟨thenScope, _, openThen, done⟩ := bind_ok done
      obtain ⟨thenPiece, thenDraft, inThen, done⟩ := bind_ok done
      obtain ⟨elseScope, _, openElse, done⟩ := bind_ok done
      obtain ⟨elsePiece, elseDraft, inElse, done⟩ := bind_ok done
      obtain ⟨condition', reads, forked⟩ := openBranch_ok sound forking
      have openFork := forked.open_ open_
      obtain ⟨openedThen, graphThen⟩ := openScope_ok (forked.sound sound) openFork.inside openThen
      obtain ⟨then', thenRoute, lowersThen⟩ := thenBranch.lower_ok context openedThen.sound
        (openedThen.open_ openFork) inThen
      have first := lowersThen.leave (forked.sound sound) openFork.inside openedThen graphThen
      have openMiddle := openFork.around first.extends_ (forked.sound sound) first.sound
        (Nat.le_refl _)
      obtain ⟨openedElse, graphElse⟩ := openScope_ok first.sound openMiddle.inside openElse
      obtain ⟨else', elseRoute, lowersElse⟩ := elseBranch.lower_ok context openedElse.sound
        (openedElse.open_ openMiddle) inElse
      have second := lowersElse.leave first.sound openMiddle.inside openedElse graphElse
      exact Stmt.lowers_branch_some sound open_ forked first second done
  | .block body location => exact Stmt.lowerBlock_ok context body sound open_ done
  | .loop condition body location => exact Stmt.lowers_of_whole sound open_ rfl done
  | .select scrutinee arms location => exact Stmt.lowers_of_whole sound open_ rfl done
  | .attempt body handler location => exact Stmt.lowers_of_whole sound open_ rfl done

theorem Stmt.lowerBlock_ok (context : LoweringContext) (body : List Stmt) {before after : Draft}
    {scope : Nat} {piece : Piece} {location : Location} (sound : before.symbols.Sound)
    (open_ : Open scope before.symbols)
    (done : Stmt.lowerBlock context scope location body before = .ok (piece, after)) :
    ∃ s' route, (Stmt.block body location).Lowers scope s' piece route before after := by
  match body with
  | [] =>
      obtain ⟨route, lowers⟩ := unitPiece_ok sound open_ done
      exact ⟨.block [] location, route, lowers.lays, lowers.grown, .inl ⟨rfl, rfl⟩,
        fun _ _ _ _ => ⟨[], rfl, rfl⟩, lowers.flows⟩
  | [only] =>
      obtain ⟨s', route, lowers⟩ := only.lower_ok context sound open_ done
      exact ⟨_, route, lowers.only location⟩
  | first :: second :: rest =>
      obtain ⟨child, opened, opening, done⟩ := bind_ok done
      obtain ⟨piece', middle, inFirst, done⟩ := bind_ok done
      obtain ⟨last, _, inRest, done⟩ := bind_ok done
      obtain ⟨rfl, rfl⟩ := pure_ok done
      obtain ⟨opening, graph⟩ := openScope_ok sound open_.inside opening
      have openChild := opening.open_ open_
      obtain ⟨first', route, lowers⟩ := first.lower_ok context opening.sound openChild inFirst
      obtain ⟨rest', tail, all⟩ := Stmt.lowerAfter_ok context (second :: rest) lowers.lays
        lowers.grown.sound (lowers.grown.open_ opening.sound openChild) inRest
      exact ⟨_, _, all.block location sound open_.inside rfl opening graph lowers⟩

theorem Stmt.lowerAfter_ok (context : LoweringContext) (rest : List Stmt)
    {start before after : Draft} {scope : Nat} {first last last' : NodeId} {route : Route}
    (lays : Lays scope start before ⟨first, last⟩ route) (sound : before.symbols.Sound)
    (open_ : Open scope before.symbols)
    (done : Stmt.lowerAfter context scope last rest before = .ok (last', after)) :
    ∃ rest' tail, Stmt.LowersAll scope rest rest' ⟨first, last'⟩ route tail start before after := by
  match rest with
  | [] =>
      obtain ⟨rfl, rfl⟩ := pure_ok done
      exact ⟨[], .stop, (Route.append_stop route).symm ▸ lays, sound, .refl _ _, rfl,
        fun _ _ _ _ => rfl, rfl⟩
  | s :: rest =>
      obtain ⟨piece, middle, inFirst, done⟩ := bind_ok done
      obtain ⟨_, linked, link, done⟩ := bind_ok done
      obtain ⟨s', part, lowers⟩ := s.lower_ok context sound open_ inFirst
      obtain ⟨_, symbols⟩ := connect_ok link
      have sound' : linked.symbols.Sound := symbols ▸ lowers.grown.sound
      have open' : Open scope linked.symbols := symbols ▸ lowers.grown.open_ sound open_
      have both := lays.append lowers.lays sound lowers.grown.sound lowers.grown.extends_ link
      obtain ⟨rest', tail, all⟩ := Stmt.lowerAfter_ok context rest both sound' open' done
      exact ⟨s' :: rest', part ++ tail, all.cons sound open_.inside lowers symbols⟩

end

end Resumable
