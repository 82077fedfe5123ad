import Resumable.Proofs.Route.Basic

/-! What is known along a route. Variables are numbered in the order of the text, so those that are
known somewhere are older than all that are declared behind. -/

namespace Resumable

/-- The variables that are visible at a point of a route, and how many there are in all. -/
structure Context where
  known : List VarId
  size : Nat

namespace Context

def Sound (context : Context) : Prop := ∀ var ∈ context.known, var < context.size

end Context

namespace Site

def after (site : Site) : Context := ⟨site.declares.toList ++ site.known, site.last⟩

/-- A site whose fragment fits where a context is known. -/
structure Within (site : Site) (context : Context) : Prop where
  known : ∀ var ∈ site.known, var ∈ context.known
  size : context.size ≤ site.first
  grows : site.first ≤ site.last
  older : ∀ var ∈ site.known, var < site.first
  fresh : ∀ var ∈ site.declares, site.first ≤ var ∧ var < site.last
  reads : ∀ var ∈ site.reads, var ∈ site.known

theorem Within.weaken {site : Site} {context wider : Context} (within : site.Within context)
    (known : ∀ var ∈ context.known, var ∈ wider.known) (size : wider.size ≤ context.size) :
    site.Within wider :=
  { within with
    known := fun var here => known var (within.known var here)
    size := Nat.le_trans size within.size }

theorem Within.after_sound {site : Site} {context : Context} (within : site.Within context) :
    site.after.Sound := by
  intro var here
  rcases List.mem_append.mp here with new | old
  · exact (within.fresh var (Option.mem_toList.mp new)).2
  · exact Nat.lt_of_lt_of_le (within.older var old) within.grows

end Site

namespace Route

/-- A route that leads from one context to another. What a branch declares is forgotten where the
branches meet. -/
def Leads : Context → Route → Context → Prop
  | before, stop, behind =>
    (∀ var ∈ behind.known, var ∈ before.known) ∧ before.size ≤ behind.size
  | before, plain site _ rest, behind => site.Within before ∧ Leads site.after rest behind
  | before, suspend site _ rest, behind => site.Within before ∧ Leads site.after rest behind
  | before, branch site _ thenRoute elseRoute rest, behind => site.Within before ∧
    ∃ size, Leads site.after thenRoute ⟨site.known, size⟩ ∧
      Leads site.after elseRoute ⟨site.known, size⟩ ∧ Leads ⟨site.known, size⟩ rest behind

/-- The variables that some site refers to. -/
def mentions (route : Route) : List VarId := route.sites.flatMap Site.reads

/-- The variables that some site declares. -/
def makes (route : Route) : List VarId := route.sites.filterMap Site.declares

@[simp] theorem mem_mentions {route : Route} {var : VarId} :
    var ∈ route.mentions ↔ ∃ site ∈ route.sites, var ∈ site.reads := by
  simp [mentions]

@[simp] theorem mem_makes {route : Route} {var : VarId} :
    var ∈ route.makes ↔ ∃ site ∈ route.sites, site.declares = some var := by
  simp [makes]

namespace Leads

variable {before middle behind : Context} {route tail : Route}

theorem weaken {wider : Context} (leads : Leads before route behind)
    (known : ∀ var ∈ before.known, var ∈ wider.known) (size : wider.size ≤ before.size) :
    Leads wider route behind := by
  cases route with
  | stop => exact ⟨fun var here => known var (leads.1 var here), Nat.le_trans size leads.2⟩
  | plain | suspend => exact ⟨leads.1.weaken known size, leads.2⟩
  | branch => exact ⟨leads.1.weaken known size, leads.2⟩

theorem size_le (leads : Leads before route behind) : before.size ≤ behind.size := by
  induction route generalizing before behind with
  | stop => exact leads.2
  | plain _ _ _ ih | suspend _ _ _ ih =>
      have here := leads.1.size
      have grows := leads.1.grows
      have rest := ih leads.2
      simp only [Site.after] at rest
      omega
  | branch _ _ _ _ _ thenIH elseIH ih =>
      obtain ⟨within, size, first, second, rest⟩ := leads
      have here := within.size
      have grows := within.grows
      have inThen := thenIH first
      have last := ih rest
      simp only [Site.after] at inThen
      simp only at last
      omega

theorem forget {less : Context} (leads : Leads before route behind)
    (known : ∀ var ∈ less.known, var ∈ behind.known) (size : behind.size ≤ less.size) :
    Leads before route less := by
  induction route generalizing before with
  | stop => exact ⟨fun var here => leads.1 var (known var here), Nat.le_trans leads.2 size⟩
  | plain _ _ _ ih | suspend _ _ _ ih => exact ⟨leads.1, ih leads.2⟩
  | branch _ _ _ _ _ _ _ ih =>
      obtain ⟨within, size, first, second, rest⟩ := leads
      exact ⟨within, size, first, second, ih rest⟩

theorem append (first : Leads before route middle) (second : Leads middle tail behind) :
    Leads before (route ++ tail) behind := by
  induction route generalizing before with
  | stop => exact second.weaken first.1 first.2
  | plain _ _ _ ih | suspend _ _ _ ih => exact ⟨first.1, ih first.2⟩
  | branch _ _ _ _ _ _ _ ih =>
      obtain ⟨within, size, inThen, inElse, rest⟩ := first
      exact ⟨within, size, inThen, inElse, ih rest⟩

theorem first_ge (leads : Leads before route behind) :
    ∀ site ∈ route.sites, before.size ≤ site.first ∧ site.last ≤ behind.size := by
  induction route generalizing before behind with
  | stop => simp [sites]
  | plain site _ rest ih | suspend site _ rest ih =>
      have here := leads.1.size
      have grows := leads.1.grows
      have further := leads.2.size_le
      simp only [Site.after] at further
      intro other present
      rcases List.mem_cons.mp present with rfl | present
      · exact ⟨here, further⟩
      · have deeper := ih leads.2 other present
        simp only [Site.after] at deeper
        omega
  | branch site _ thenRoute elseRoute rest thenIH elseIH ih =>
      obtain ⟨within, size, first, second, last⟩ := leads
      have here := within.size
      have grows := within.grows
      have inThen := first.size_le
      have further := last.size_le
      simp only [Site.after] at inThen
      simp only at further
      intro other present
      simp only [sites, List.mem_cons, List.mem_append] at present
      rcases present with rfl | present | present | present
      · omega
      · have deeper := thenIH first other present
        simp only [Site.after] at deeper
        omega
      · have deeper := elseIH second other present
        simp only [Site.after] at deeper
        omega
      · have deeper := ih last other present
        simp only at deeper
        omega

theorem within_of_mem (leads : Leads before route behind) {site : Site}
    (present : site ∈ route.sites) : ∃ context, site.Within context := by
  induction route generalizing before behind with
  | stop => simp [sites] at present
  | plain other _ rest ih | suspend other _ rest ih =>
      rcases List.mem_cons.mp present with rfl | present
      · exact ⟨_, leads.1⟩
      · exact ih leads.2 present
  | branch other _ thenRoute elseRoute rest thenIH elseIH ih =>
      obtain ⟨within, size, first, second, last⟩ := leads
      simp only [sites, List.mem_cons, List.mem_append] at present
      rcases present with rfl | present | present | present
      · exact ⟨_, within⟩
      · exact thenIH first present
      · exact elseIH second present
      · exact ih last present

theorem le_of_makes (leads : Leads before route behind) {var : VarId}
    (made : var ∈ route.makes) : before.size ≤ var := by
  obtain ⟨site, present, declares⟩ := mem_makes.mp made
  obtain ⟨context, within⟩ := leads.within_of_mem present
  have older := (leads.first_ge site present).1
  have newer := (within.fresh var declares).1
  omega

theorem known_of_mentions (leads : Leads before route behind) {var : VarId}
    (mentioned : var ∈ route.mentions) (notMade : var ∉ route.makes) : var ∈ before.known := by
  induction route generalizing before behind with
  | stop => simp [sites] at mentioned
  | plain site _ rest ih | suspend site _ rest ih =>
      obtain ⟨other, present, reads⟩ := mem_mentions.mp mentioned
      rcases List.mem_cons.mp present with rfl | present
      · exact leads.1.known var (leads.1.reads var reads)
      · have deeper : var ∈ rest.mentions := mem_mentions.mpr ⟨other, present, reads⟩
        have unmade : var ∉ rest.makes := fun made => by
          obtain ⟨maker, inside, declares⟩ := mem_makes.mp made
          exact notMade (mem_makes.mpr ⟨maker, List.mem_cons_of_mem _ inside, declares⟩)
        have found := ih leads.2 deeper unmade
        rcases List.mem_append.mp found with here | here
        · exact absurd (mem_makes.mpr ⟨site, List.mem_cons_self, Option.mem_toList.mp here⟩) notMade
        · exact leads.1.known var here
  | branch site _ thenRoute elseRoute rest thenIH elseIH ih =>
      obtain ⟨within, size, first, second, last⟩ := leads
      have unmade : ∀ part : Route, part.sites ⊆ (thenRoute.sites ++ (elseRoute.sites ++ rest.sites)) →
          var ∉ part.makes := by
        intro part subset made
        obtain ⟨maker, inside, declares⟩ := mem_makes.mp made
        exact notMade (mem_makes.mpr ⟨maker, List.mem_cons_of_mem _ (subset inside), declares⟩)
      have behindSite : var ∈ site.after.known → var ∈ before.known := by
        intro found
        rcases List.mem_append.mp found with here | here
        · exact absurd (mem_makes.mpr ⟨site, List.mem_cons_self, Option.mem_toList.mp here⟩) notMade
        · exact within.known var here
      obtain ⟨other, present, reads⟩ := mem_mentions.mp mentioned
      simp only [sites, List.mem_cons, List.mem_append] at present
      rcases present with rfl | present | present | present
      · exact within.known var (within.reads var reads)
      · exact behindSite (thenIH first (mem_mentions.mpr ⟨other, present, reads⟩)
          (unmade _ (List.subset_append_left _ _)))
      · exact behindSite (elseIH second (mem_mentions.mpr ⟨other, present, reads⟩)
          (unmade _ (List.subset_append_of_subset_right _ (List.subset_append_left _ _))))
      · exact within.known var (ih last (mem_mentions.mpr ⟨other, present, reads⟩)
          (unmade _ (List.subset_append_of_subset_right _ (List.subset_append_right _ _))))

theorem of_mem_tails (leads : Leads before route behind) (sound : before.Sound)
    (inside : tail ∈ route.tails) :
    ∃ context, context.Sound ∧ Leads context tail behind := by
  induction route generalizing before behind tail with
  | stop => cases inside
  | plain site _ rest ih | suspend site _ rest ih =>
      rcases List.mem_cons.mp inside with rfl | deeper
      · exact ⟨before, sound, leads⟩
      · exact ih leads.2 leads.1.after_sound deeper
  | branch site _ thenRoute elseRoute rest thenIH elseIH ih =>
      rcases List.mem_cons.mp inside with rfl | deeper
      · exact ⟨before, sound, leads⟩
      · obtain ⟨within, size, first, second, last⟩ := leads
        have inThen := first.size_le
        simp only [Site.after] at inThen
        have met : (Context.mk site.known size).Sound := fun var here =>
          Nat.lt_of_lt_of_le (within.older var here) (Nat.le_trans within.grows inThen)
        simp only [List.mem_append, List.mem_map] at deeper
        rcases deeper with ⟨part, present, rfl⟩ | ⟨part, present, rfl⟩ | present
        · obtain ⟨context, sound', leads'⟩ := thenIH first within.after_sound present
          exact ⟨context, sound', leads'.append last⟩
        · obtain ⟨context, sound', leads'⟩ := elseIH second within.after_sound present
          exact ⟨context, sound', leads'.append last⟩
        · exact ih last met present

end Leads
end Route
end Resumable
