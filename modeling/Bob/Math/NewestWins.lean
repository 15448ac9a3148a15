/-
# Searching many sources for the newest record

A reader asks one source after another and keeps a record only if it is strictly
newer than the one it has. It may skip a source on the strength of the best stamp
so far. The search finds a newest record, and skipping is harmless as long as the
newest stamp also lives in a source that is never skipped.
-/

import Mathlib.Data.List.Basic
import Mathlib.Order.Lattice

namespace Bob.Math

universe u v w

variable {σ : Type u} {ρ : Type v} {τ : Type w} [LinearOrder τ] (stamp : ρ → τ)
  (look : σ → Option ρ) (visit : σ → τ → Bool)

/-- Keep the record that was seen if it is newer than the best one. -/
def keepNewer (best seen : Option ρ) : Option ρ :=
  match seen, best with
  | none, _ => best
  | some record, none => some record
  | some record, some other => if stamp other < stamp record then some record else best

/-- Ask a source, unless the best stamp so far makes the reader skip it. -/
def searchStep (best : Option ρ) (source : σ) : Option ρ :=
  if best.all fun record => visit source (stamp record) then keepNewer stamp best (look source)
  else best

/-- Ask the sources in order. -/
def searchNewest (sources : List σ) : Option ρ :=
  sources.foldl (searchStep stamp look visit) none

/-- A record of one of the sources that no record of any source is newer than. -/
structure IsNewest (sources : List σ) (record : ρ) : Prop where
  found : ∃ source ∈ sources, look source = some record
  newest : ∀ source ∈ sources, ∀ other, look source = some other → stamp other ≤ stamp record

variable {stamp look visit} {sources : List σ}

theorem keepNewer_eq_none_iff {best seen : Option ρ} :
    keepNewer stamp best seen = none ↔ best = none ∧ seen = none := by
  cases seen <;> cases best <;> simp [keepNewer]
  split_ifs <;> simp

/-- What is kept is one of the two, and neither is newer. -/
theorem keepNewer_spec {best seen : Option ρ} {record : ρ}
    (kept : keepNewer stamp best seen = some record) :
    (best = some record ∨ seen = some record) ∧
      (∀ other, best = some other → stamp other ≤ stamp record) ∧
      ∀ other, seen = some other → stamp other ≤ stamp record := by
  cases seen with
  | none =>
    cases kept
    refine ⟨Or.inl rfl, ?_, ?_⟩
    · rintro _ ⟨⟩
      exact le_rfl
    · rintro _ ⟨⟩
  | some candidate =>
    cases best with
    | none =>
      cases kept
      refine ⟨Or.inr rfl, ?_, ?_⟩
      · rintro _ ⟨⟩
      · rintro _ ⟨⟩
        exact le_rfl
    | some other =>
      simp only [keepNewer] at kept
      split_ifs at kept with newer
      · cases kept
        refine ⟨Or.inr rfl, ?_, ?_⟩
        · rintro _ ⟨⟩
          exact le_of_lt newer
        · rintro _ ⟨⟩
          exact le_rfl
      · cases kept
        refine ⟨Or.inl rfl, ?_, ?_⟩
        · rintro _ ⟨⟩
          exact le_rfl
        · rintro _ ⟨⟩
          exact le_of_not_gt newer

section All

/-- Without skipping, the search starting from `best` ends with `best` or with a
record of a source, and nothing is newer. -/
private theorem foldl_searchStep_spec {best : Option ρ} {record : ρ}
    (result : sources.foldl (searchStep stamp look fun _ _ => true) best = some record) :
    (best = some record ∨ ∃ source ∈ sources, look source = some record) ∧
      (∀ other, best = some other → stamp other ≤ stamp record) ∧
      ∀ source ∈ sources, ∀ other, look source = some other → stamp other ≤ stamp record := by
  induction sources generalizing best with
  | nil =>
    cases result
    refine ⟨Or.inl rfl, ?_, by simp⟩
    rintro _ ⟨⟩
    exact le_rfl
  | cons source rest ih =>
    obtain ⟨origin, overKept, overRest⟩ := ih result
    have step : searchStep stamp look (fun _ _ => true) best source =
        keepNewer stamp best (look source) := if_pos (by simp)
    rw [step] at origin overKept
    -- what was at hand before the step is bounded by what the step kept
    have older (other : ρ) (origin' : best = some other ∨ look source = some other) :
        stamp other ≤ stamp record := by
      cases kept : keepNewer stamp best (look source) with
      | none =>
        obtain ⟨noBest, noSeen⟩ := keepNewer_eq_none_iff.mp kept
        simp [noBest, noSeen] at origin'
      | some middle =>
        obtain ⟨-, overBest, overSeen⟩ := keepNewer_spec kept
        exact le_trans (origin'.elim (overBest other) (overSeen other)) (overKept middle kept)
    refine ⟨?_, fun other same => older other (Or.inl same), ?_⟩
    · rcases origin with kept | ⟨later, member, looked⟩
      · exact (keepNewer_spec kept).1.imp_right fun seen => ⟨source, List.mem_cons_self, seen⟩
      · exact Or.inr ⟨later, List.mem_cons_of_mem _ member, looked⟩
    · intro asked member other looked
      rcases List.mem_cons.mp member with rfl | member
      · exact older other (Or.inr looked)
      · exact overRest asked member other looked

/-- Without skipping, the search finds a newest record. -/
theorem isNewest_of_searchNewest {record : ρ}
    (result : searchNewest stamp look (fun _ _ => true) sources = some record) :
    IsNewest stamp look sources record := by
  obtain ⟨origin, -, newest⟩ := foldl_searchStep_spec result
  exact ⟨origin.resolve_left (by simp), newest⟩

/-- What the search finds is a record of some source. -/
theorem exists_of_searchNewest {record : ρ}
    (result : searchNewest stamp look visit sources = some record) :
    ∃ source ∈ sources, look source = some record := by
  have general (best : Option ρ) : sources.foldl (searchStep stamp look visit) best = some record →
      best = some record ∨ ∃ source ∈ sources, look source = some record := by
    clear result
    induction sources generalizing best with
    | nil => exact Or.inl
    | cons source rest ih =>
      intro result
      rcases ih (searchStep stamp look visit best source) result with step | ⟨later, member, looked⟩
      · unfold searchStep at step
        split_ifs at step with visited
        · exact (keepNewer_spec step).1.imp_right fun seen => ⟨source, List.mem_cons_self, seen⟩
        · exact Or.inl step
      · exact Or.inr ⟨later, List.mem_cons_of_mem _ member, looked⟩
  exact (general none result).resolve_left (by simp)

/-- The search finds nothing only if there is nothing to find. -/
theorem searchNewest_eq_none_iff :
    searchNewest stamp look visit sources = none ↔ ∀ source ∈ sources, look source = none := by
  have general (best : Option ρ) : sources.foldl (searchStep stamp look visit) best = none ↔
      best = none ∧ ∀ source ∈ sources, look source = none := by
    induction sources generalizing best with
    | nil => simp
    | cons source rest ih =>
      rw [List.foldl_cons, ih]
      have step : searchStep stamp look visit best source = none ↔
          best = none ∧ look source = none := by
        cases best with
        | none => simp [searchStep, keepNewer_eq_none_iff]
        | some record =>
          simp only [searchStep]
          split_ifs <;> simp [keepNewer_eq_none_iff]
      rw [step]
      simp [and_assoc]
  simpa [searchNewest] using general none

end All

section Skipping

variable {top : τ}

/-- The source is asked as long as the best stamp is at most `top`. -/
def NeverSkipped (visit : σ → τ → Bool) (top : τ) (source : σ) : Prop :=
  ∀ t ≤ top, visit source t = true

/-- The record found so far has the top stamp. -/
private def AtTop (stamp : ρ → τ) (top : τ) (best : Option ρ) : Prop :=
  ∃ record, best = some record ∧ stamp record = top

/-- The record found so far, if there is one, is not newer than `top`. -/
private def Capped (stamp : ρ → τ) (top : τ) (best : Option ρ) : Prop :=
  ∀ record, best = some record → stamp record ≤ top

private theorem searchStep_of_atTop {best : Option ρ} {source : σ} (atTop : AtTop stamp top best)
    (capped : Capped stamp top (look source)) : searchStep stamp look visit best source = best := by
  obtain ⟨record, rfl, rfl⟩ := atTop
  unfold searchStep
  split_ifs with visited
  · cases looked : look source with
    | none => rfl
    | some other => exact if_neg (not_lt_of_ge (capped other looked))
  · rfl

private theorem capped_searchStep {best : Option ρ} {source : σ} (capped : Capped stamp top best)
    (looked : Capped stamp top (look source)) :
    Capped stamp top (searchStep stamp look visit best source) := by
  intro record result
  unfold searchStep at result
  split_ifs at result with visited
  · exact (keepNewer_spec result).1.elim (capped record) (looked record)
  · exact capped record result

/-- A record with the top stamp is kept when its source is asked. -/
private theorem searchStep_eq_look {best : Option ρ} {source : σ} {record : ρ}
    (capped : Capped stamp top best) (missing : ¬ AtTop stamp top best)
    (looked : look source = some record) (same : stamp record = top)
    (asked : (best.all fun other => visit source (stamp other)) = true) :
    searchStep stamp look visit best source = some record := by
  rw [searchStep, if_pos asked, looked]
  cases best with
  | none => rfl
  | some other =>
    have below : stamp other < stamp record := by
      rw [same]
      exact lt_of_le_of_ne (capped other rfl) fun equal => missing ⟨other, rfl, equal⟩
    exact if_pos below

/-- If the source that was asked is not at the top, neither is the step. -/
private theorem not_atTop_searchStep {best : Option ρ} {source : σ}
    (missing : ¬ AtTop stamp top best) (looked : ¬ AtTop stamp top (look source)) :
    ¬ AtTop stamp top (searchStep stamp look visit best source) := by
  rintro ⟨record, result, same⟩
  unfold searchStep at result
  split_ifs at result with visited
  · exact (keepNewer_spec result).1.elim (fun h => missing ⟨record, h, same⟩)
      fun h => looked ⟨record, h, same⟩
  · exact missing ⟨record, result, same⟩

private theorem all_visit_of_neverSkipped {best : Option ρ} {source : σ}
    (capped : Capped stamp top best) (never : NeverSkipped visit top source) :
    (best.all fun other => visit source (stamp other)) = true := by
  cases best with
  | none => rfl
  | some other => exact never _ (capped other rfl)

/-- The search that skips reaches the top stamp if a source that it never skips has it. -/
private theorem atTop_foldl {best : Option ρ} (capped : Capped stamp top best)
    (bounded : ∀ source ∈ sources, Capped stamp top (look source))
    (home : AtTop stamp top best ∨ ∃ source ∈ sources, AtTop stamp top (look source) ∧
      NeverSkipped visit top source) :
    AtTop stamp top (sources.foldl (searchStep stamp look visit) best) := by
  induction sources generalizing best with
  | nil => simpa using home
  | cons source rest ih =>
    have looked := bounded source List.mem_cons_self
    refine ih (capped_searchStep capped looked)
      (fun other member => bounded other (List.mem_cons_of_mem _ member)) ?_
    -- once at the top the search stays there; before, it still has the source ahead
    by_cases atTop : AtTop stamp top best
    · rw [searchStep_of_atTop atTop looked]
      exact Or.inl atTop
    obtain ⟨found, member, ⟨record, seen, same⟩, never⟩ := home.resolve_left atTop
    -- this is the source that is never skipped
    rcases List.mem_cons.mp member with rfl | later
    · left
      rw [searchStep_eq_look capped atTop seen same (all_visit_of_neverSkipped capped never)]
      exact ⟨record, rfl, same⟩
    · exact Or.inr ⟨found, later, ⟨record, seen, same⟩, never⟩

/-- Two searches, one that skips and one that does not: they agree at the top, or
the first has not reached the top and every record there is the one the second has. -/
private theorem foldl_agree {skipping asking : Option ρ} (all : List σ)
    (within : ∀ source ∈ sources, source ∈ all)
    (bounded : ∀ source ∈ all, Capped stamp top (look source))
    (tie : ∀ source ∈ all, ∀ record, look source = some record → stamp record = top →
      NeverSkipped visit top source ∨
        ∀ other ∈ all, ∀ seen, look other = some seen → stamp seen = top → seen = record)
    (capped : Capped stamp top skipping) (capped' : Capped stamp top asking)
    (start : AtTop stamp top skipping → skipping = asking)
    (ahead : AtTop stamp top asking → skipping = asking ∨
      ∀ other ∈ all, ∀ seen, look other = some seen → stamp seen = top → asking = some seen) :
    AtTop stamp top (sources.foldl (searchStep stamp look visit) skipping) →
      sources.foldl (searchStep stamp look visit) skipping =
        sources.foldl (searchStep stamp look fun _ _ => true) asking := by
  induction sources generalizing skipping asking with
  | nil => exact start
  | cons source rest ih =>
    have here := within source List.mem_cons_self
    have looked := bounded source here
    refine ih (fun other member => within other (List.mem_cons_of_mem _ member))
      (capped_searchStep capped looked) (capped_searchStep capped' looked) ?_ ?_
    · intro reached
      by_cases before : AtTop stamp top skipping
      · have same := start before
        rw [searchStep_of_atTop before looked, searchStep_of_atTop (same ▸ before) looked, same]
      · -- The step itself has brought the search that skips to the top.
        by_cases seen : AtTop stamp top (look source)
        · obtain ⟨record, hrecord, equal⟩ := seen
          have asked : (skipping.all fun other => visit source (stamp other)) = true := by
            by_contra skipped
            rw [searchStep, if_neg skipped] at reached
            exact before reached
          rw [searchStep_eq_look capped before hrecord equal asked]
          by_cases askingTop : AtTop stamp top asking
          · rw [searchStep_of_atTop askingTop looked]
            rcases ahead askingTop with same | unique
            · exact absurd (same ▸ askingTop) before
            · exact (unique source here record hrecord equal).symm
          · exact (searchStep_eq_look capped' askingTop hrecord equal (by simp)).symm
        · exact absurd reached (not_atTop_searchStep before seen)
    · intro reached
      by_cases before : AtTop stamp top asking
      · rw [searchStep_of_atTop before looked]
        rcases ahead before with same | unique
        · left
          rw [same, searchStep_of_atTop before looked]
        · exact Or.inr unique
      · by_cases seen : AtTop stamp top (look source)
        · obtain ⟨record, hrecord, equal⟩ := seen
          have late : ¬ AtTop stamp top skipping := fun early => before (start early ▸ early)
          rw [searchStep_eq_look capped' before hrecord equal (by simp)]
          -- the search that asks everything has just reached the top; the other one has asked
          -- the source as well, or cannot find anything else there
          rcases tie source here record hrecord equal with never | unique
          · left
            exact searchStep_eq_look capped late hrecord equal
              (all_visit_of_neverSkipped capped never)
          · right
            intro other member found hfound top'
            rw [unique other member found hfound top']
        · exact absurd reached (not_atTop_searchStep before seen)

/-- Skipping does not change what is found: the newest stamp lives in a source that
is never skipped, and sources that may be skipped cannot disagree about it. -/
theorem searchNewest_visit_eq
    (bounded : ∀ source ∈ sources, ∀ record, look source = some record → stamp record ≤ top)
    (home : ∃ source ∈ sources, (∃ record, look source = some record ∧ stamp record = top) ∧
      NeverSkipped visit top source)
    (tie : ∀ source ∈ sources, ∀ record, look source = some record → stamp record = top →
      NeverSkipped visit top source ∨
        ∀ other ∈ sources, ∀ seen, look other = some seen → stamp seen = top → seen = record) :
    searchNewest stamp look visit sources = searchNewest stamp look (fun _ _ => true) sources := by
  have empty : Capped stamp top (none : Option ρ) := by
    rintro _ ⟨⟩
  have fresh : ¬ AtTop stamp top (none : Option ρ) := by
    rintro ⟨_, ⟨⟩, _⟩
  exact foldl_agree sources (fun _ member => member) bounded tie empty empty
    (fun h => absurd h fresh) (fun h => absurd h fresh) (atTop_foldl empty bounded (Or.inr home))

end Skipping

end Bob.Math
