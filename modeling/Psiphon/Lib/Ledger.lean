import Mathlib.Data.Set.Insert

/-!
# A ledger of held resources

Resources are acquired by holders, passed on, released, or simply forgotten.
-/

/-- Which resources were acquired, who holds them, and which were released. -/
@[ext]
structure Ledger (H R : Type*) where
  acquired : Set R
  held : H → R → Prop
  released : Set R

namespace Ledger

variable {H R : Type*}

/-- What can happen to the resources. -/
inductive Move (H R : Type*) where
  | skip
  | acquire (h : H) (r : R)
  | transfer (source target : H)
  | forget (h : H)
  | release (hs : Set H)

/-- The ledger after a move. A transfer overwrites what its target held. -/
def move (L : Ledger H R) : Move H R → Ledger H R
  | .skip => L
  | .acquire h r =>
    ⟨insert r L.acquired, fun h' r' => L.held h' r' ∨ h' = h ∧ r' = r, L.released⟩
  | .transfer a b =>
    ⟨L.acquired, fun h r => h ≠ a ∧ h ≠ b ∧ L.held h r ∨ h = b ∧ L.held a r, L.released⟩
  | .forget a => ⟨L.acquired, fun h r => h ≠ a ∧ L.held h r, L.released⟩
  | .release hs =>
    ⟨L.acquired, fun h r => h ∉ hs ∧ L.held h r, L.released ∪ {r | ∃ h ∈ hs, L.held h r}⟩

/-- Only new resources are acquired, and no holder transfers to itself. -/
def Legal (L : Ledger H R) : Move H R → Prop
  | .acquire _ r => r ∉ L.acquired
  | .transfer a b => a ≠ b
  | _ => True

/-- The move forgets a resource that some holder has. -/
def Loses (L : Ledger H R) : Move H R → Prop
  | .transfer _ b => ∃ r, L.held b r
  | .forget a => ∃ r, L.held a r
  | _ => False

/-- Every held resource has exactly one holder and has not been released. -/
structure Exclusive (L : Ledger H R) : Prop where
  unique : ∀ {h h' r}, L.held h r → L.held h' r → h = h'
  acquired : ∀ {h r}, L.held h r → r ∈ L.acquired
  unreleased : ∀ {h r}, L.held h r → r ∉ L.released
  released : ∀ {r}, r ∈ L.released → r ∈ L.acquired

/-- Every acquired resource is released or held. -/
def Covered (L : Ledger H R) : Prop :=
  ∀ r ∈ L.acquired, r ∈ L.released ∨ ∃ h, L.held h r

variable {L : Ledger H R} {m : Move H R}

theorem Exclusive.move (he : L.Exclusive) (hm : L.Legal m) : (L.move m).Exclusive := by
  cases m with
  | skip => exact he
  | acquire h r =>
    refine ⟨?_,?_,?_,fun hr => .inr (he.released hr)⟩
    · rintro h₁ h₂ r' (h₁r | ⟨rfl,rfl⟩) (h₂r | ⟨rfl,hr⟩)
      · exact he.unique h₁r h₂r
      · exact absurd (he.acquired (hr ▸ h₁r)) hm
      · exact absurd (he.acquired h₂r) hm
      · rfl
    · rintro h' r' (hr | ⟨_,rfl⟩)
      · exact .inr (he.acquired hr)
      · exact .inl rfl
    · rintro h' r' (hr | ⟨_,rfl⟩) hrel
      · exact he.unreleased hr hrel
      · exact hm (he.released hrel)
  | transfer a b =>
    refine ⟨?_,?_,?_,he.released⟩
    · rintro h₁ h₂ r (⟨h₁a,h₁b,h₁r⟩ | ⟨rfl,h₁r⟩) (⟨h₂a,h₂b,h₂r⟩ | ⟨rfl,h₂r⟩)
      · exact he.unique h₁r h₂r
      · exact absurd (he.unique h₁r h₂r) h₁a
      · exact absurd (he.unique h₂r h₁r) h₂a
      · rfl
    · rintro h r (⟨_,_,hr⟩ | ⟨_,hr⟩) <;> exact he.acquired hr
    · rintro h r (⟨_,_,hr⟩ | ⟨_,hr⟩) <;> exact he.unreleased hr
  | forget a =>
    exact ⟨fun h₁ h₂ => he.unique h₁.2 h₂.2,fun h => he.acquired h.2,
      fun h => he.unreleased h.2,he.released⟩
  | release hs =>
    refine ⟨fun h₁ h₂ => he.unique h₁.2 h₂.2,fun h => he.acquired h.2,?_,?_⟩
    · rintro h r ⟨hn,hr⟩ (hrel | ⟨h',hh',hr'⟩)
      · exact he.unreleased hr hrel
      · exact hn (he.unique hr hr' ▸ hh')
    · rintro r (hrel | ⟨h',_,hr'⟩)
      · exact he.released hrel
      · exact he.acquired hr'

theorem covered_of_move (hm : L.Legal m) (hc : (L.move m).Covered) : L.Covered := by
  intro r hr
  cases m with
  | skip => exact hc r hr
  | acquire h r' =>
    rcases hc r (.inr hr) with hrel | ⟨h',hh' | ⟨_,rfl⟩⟩
    · exact .inl hrel
    · exact .inr ⟨h',hh'⟩
    · exact absurd hr hm
  | transfer a b =>
    rcases hc r hr with hrel | ⟨h,⟨_,_,hh⟩ | ⟨_,hh⟩⟩
    · exact .inl hrel
    · exact .inr ⟨h,hh⟩
    · exact .inr ⟨a,hh⟩
  | forget a => exact (hc r hr).imp_right fun ⟨h,_,hh⟩ => ⟨h,hh⟩
  | release hs =>
    rcases hc r hr with (hrel | ⟨h,_,hh⟩) | ⟨h,_,hh⟩
    · exact .inl hrel
    · exact .inr ⟨h,hh⟩
    · exact .inr ⟨h,hh⟩

theorem not_covered_of_loses (he : L.Exclusive) (hm : L.Legal m) (hl : L.Loses m) :
    ¬ (L.move m).Covered := by
  intro hc
  cases m with
  | transfer a b =>
    obtain ⟨r,hr⟩ := hl
    rcases hc r (he.acquired hr) with hrel | ⟨h,⟨_,hb,hh⟩ | ⟨_,hh⟩⟩
    · exact he.unreleased hr hrel
    · exact hb (he.unique hh hr)
    · exact hm (he.unique hh hr)
  | forget a =>
    obtain ⟨r,hr⟩ := hl
    rcases hc r (he.acquired hr) with hrel | ⟨h,ha,hh⟩
    · exact he.unreleased hr hrel
    · exact ha (he.unique hh hr)
  | skip => exact hl
  | acquire h r => exact hl
  | release hs => exact hl

theorem Covered.move (hc : L.Covered) (hl : ¬ L.Loses m) : (L.move m).Covered := by
  intro r hr
  cases m with
  | skip => exact hc r hr
  | acquire h r' =>
    rcases hr with rfl | hr
    · exact .inr ⟨h,.inr ⟨rfl,rfl⟩⟩
    · exact (hc r hr).imp_right fun ⟨h',hh'⟩ => ⟨h',.inl hh'⟩
  | transfer a b =>
    rcases hc r hr with hrel | ⟨h,hh⟩
    · exact .inl hrel
    · have hb : h ≠ b := fun hb => hl ⟨r,hb ▸ hh⟩
      by_cases ha : h = a
      · exact .inr ⟨b,.inr ⟨rfl,ha ▸ hh⟩⟩
      · exact .inr ⟨h,.inl ⟨ha,hb,hh⟩⟩
  | forget a =>
    refine (hc r hr).imp_right fun ⟨h,hh⟩ => ⟨h,fun ha => hl ⟨r,ha ▸ hh⟩,hh⟩
  | release hs =>
    rcases hc r hr with hrel | ⟨h,hh⟩
    · exact .inl (.inl hrel)
    · by_cases hn : h ∈ hs
      · exact .inl (.inr ⟨h,hn,hh⟩)
      · exact .inr ⟨h,hn,hh⟩

/-- A move leaves every resource accounted for exactly when all were before it and it
forgets none. -/
theorem covered_move_iff (he : L.Exclusive) (hm : L.Legal m) :
    (L.move m).Covered ↔ L.Covered ∧ ¬ L.Loses m :=
  ⟨fun hc => ⟨covered_of_move hm hc,fun hl => not_covered_of_loses he hm hl hc⟩,
    fun ⟨hc,hl⟩ => hc.move hl⟩

end Ledger
