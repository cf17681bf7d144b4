import Mathlib.Data.List.Forall2
import ReviewRota.Proofs.Refill

/-!
# What a repair plan says

The planner goes through the reviewers and then through the candidates, and keeps in mind whom it
has seen.  Here its lists are said at once: all reviewers who stay, and as many candidates as there
is room for.  Both lists may name anybody more than once, and there may be too many reviewers.
-/

namespace ReviewRota.Repair

variable {deactivated : List String} {pools : Pools} {a : Affected} {r : String}

def staying (deactivated : List String) (a : Affected) : List String :=
  (a.reviewers.filter fun id => id ∉ deactivated).eraseDups

def joining (deactivated : List String) (pools : Pools) (a : Affected) : List String :=
  (pool pools a.authorTeam).eraseDups.filter fun id =>
    id ≠ a.authorId ∧ id ∉ staying deactivated a

def planned (deactivated : List String) (pools : Pools) (a : Affected) : List String :=
  staying deactivated a ++
    (joining deactivated pools a).take (2 - (staying deactivated a).length)

theorem update_eq : update deactivated pools a = ⟨a.pullRequest, planned deactivated pools a⟩ := by
  have hstaying : survivors deactivated [] a.reviewers = staying deactivated a := by
    simp [survivors_eq, staying]
  have hjoining : ((pool pools a.authorTeam).filter fun id =>
      id ≠ a.authorId && !(staying deactivated a).contains id).eraseDups =
        joining deactivated pools a := by
    simp [eraseDups_filter, joining]
  rw [update, hstaying, fill_eq, hjoining, planned, reviewerCap]

theorem mem_staying : r ∈ staying deactivated a ↔ r ∈ a.reviewers ∧ r ∉ deactivated := by
  simp [staying]

theorem mem_joining :
    r ∈ joining deactivated pools a ↔
      r ∈ pool pools a.authorTeam ∧ r ≠ a.authorId ∧ r ∉ staying deactivated a := by
  simp [joining]

theorem planned_nodup : (planned deactivated pools a).Nodup := by
  refine List.nodup_append.2 ⟨nodup_eraseDups _, ?_, ?_⟩
  · exact ((nodup_eraseDups _).filter _).sublist (List.take_sublist _ _)
  · rintro r hr _ hjoins rfl
    exact (mem_joining.1 (List.mem_of_mem_take hjoins)).2.2 hr

theorem mem_planned_of_short (hshort : (planned deactivated pools a).length < 2)
    (hr : r ∈ pool pools a.authorTeam) : r = a.authorId ∨ r ∈ planned deactivated pools a := by
  have hall : planned deactivated pools a =
      staying deactivated a ++ joining deactivated pools a := by
    rw [planned, List.length_append, List.length_take] at hshort
    rw [planned, List.take_of_length_le (by omega)]
  by_cases hauthor : r = a.authorId
  · exact .inl hauthor
  · right
    rw [hall, List.mem_append, mem_joining]
    by_cases hstays : r ∈ staying deactivated a
    · exact .inl hstays
    · exact .inr ⟨hr, hauthor, hstays⟩

theorem mem_of_mem_planned (hr : r ∈ planned deactivated pools a)
    (hpool : ∀ r ∈ pool pools a.authorTeam, r ∉ deactivated) : r ∉ deactivated := by
  rcases List.mem_append.1 hr with hstays | hjoins
  · exact (mem_staying.1 hstays).2
  · exact hpool r (mem_joining.1 (List.mem_of_mem_take hjoins)).1

theorem planned_planned (hpool : ∀ r ∈ pool pools a.authorTeam, r ∉ deactivated) :
    planned deactivated pools { a with reviewers := planned deactivated pools a } =
      planned deactivated pools a := by
  have hstaying : staying deactivated { a with reviewers := planned deactivated pools a } =
      planned deactivated pools a := by
    have hfilter : ((planned deactivated pools a).filter fun id => id ∉ deactivated) =
        planned deactivated pools a :=
      List.filter_eq_self.2 fun r hr => decide_eq_true (mem_of_mem_planned hr hpool)
    rw [staying, hfilter, eraseDups_of_nodup planned_nodup]
  rw [planned, hstaying]
  -- A short list has taken up all candidates already, and any other one has no room for them.
  by_cases hshort : (planned deactivated pools a).length < 2
  · have hnobody : joining deactivated pools
        { a with reviewers := planned deactivated pools a } = [] := by
      rw [List.eq_nil_iff_forall_not_mem]
      intro r hr
      rw [mem_joining, hstaying] at hr
      obtain ⟨hr, hauthor, hout⟩ := hr
      rcases mem_planned_of_short hshort hr with h | h
      · exact hauthor h
      · exact hout h
    rw [hnobody, List.take_nil, List.append_nil]
  · rw [Nat.sub_eq_zero_of_le (by omega), List.take_zero, List.append_nil]

structure Planned (deactivated : List String) (pools : Pools) (a : Affected)
    (reviewers : List String) : Prop where
  eq : reviewers = staying deactivated a ++
    (joining deactivated pools a).take (2 - (staying deactivated a).length)
  nodup : reviewers.Nodup
  keeps : ∀ r ∈ a.reviewers, r ∉ deactivated → r ∈ reviewers
  short : reviewers.length < 2 → ∀ r ∈ pool pools a.authorTeam, r = a.authorId ∨ r ∈ reviewers

theorem planned_update : Planned deactivated pools a (update deactivated pools a).reviewers := by
  rw [update_eq]
  constructor
  case eq => rfl
  case nodup => exact planned_nodup
  case keeps =>
    intro r hr hstays
    exact List.mem_append_left _ (mem_staying.2 ⟨hr, hstays⟩)
  case short =>
    intro hshort r hr
    exact mem_planned_of_short hshort hr

/-- The plan has one list for each affected pull request, in order: those who stay, then those who
join as far as there is room.  If no candidate is deactivated, planning for these lists once more
gives the same plan. -/
theorem plan_settles (affected : List Affected) (deactivated : List String) (pools : Pools) :
    List.Forall₂
        (fun a u => u.pullRequest = a.pullRequest ∧ Planned deactivated pools a u.reviewers)
        affected (plan affected deactivated pools) ∧
      ((∀ a ∈ affected, ∀ r ∈ pool pools a.authorTeam, r ∉ deactivated) →
        plan (List.zipWith (fun a u => { a with reviewers := u.reviewers }) affected
          (plan affected deactivated pools)) deactivated pools =
            plan affected deactivated pools) := by
  constructor
  · rw [plan, List.forall₂_map_right_iff, List.forall₂_same]
    exact fun a _ => ⟨rfl, planned_update⟩
  · intro hpools
    rw [plan, plan, List.zipWith_map_right, List.zipWith_self, List.map_map]
    apply List.map_congr_left
    intro a ha
    rw [Function.comp_apply, update_eq, update_eq, planned_planned (hpools a ha)]

/-- One list is too long and the other runs out of candidates; both repeat somebody. -/
theorem plan_settles_crowded :
    let affected : List Affected := [⟨"p", "a", ["b", "c", "b", "d", "e", "c"], some "web"⟩,
      ⟨"q", "c", ["b", "d", "d"], some "web"⟩, ⟨"r", "a", ["b", "c"], none⟩]
    let pools : Pools := [("web", ["c", "d", "c"])]
    (∀ a ∈ affected, ∀ r ∈ pool pools a.authorTeam, r ∉ ["b"]) ∧
      plan affected ["b"] pools = [⟨"p", ["c", "d", "e"]⟩, ⟨"q", ["d"]⟩, ⟨"r", ["c"]⟩] ∧
      plan [⟨"p", "a", ["c", "d", "e"], some "web"⟩, ⟨"q", "c", ["d"], some "web"⟩,
        ⟨"r", "a", ["c"], none⟩] ["b"] pools =
          [⟨"p", ["c", "d", "e"]⟩, ⟨"q", ["d"]⟩, ⟨"r", ["c"]⟩] := by
  intro affected pools
  have hpools : ∀ a ∈ affected, ∀ r ∈ pool pools a.authorTeam, r ∉ ["b"] := by decide
  have hplan : plan affected ["b"] pools =
      [⟨"p", ["c", "d", "e"]⟩, ⟨"q", ["d"]⟩, ⟨"r", ["c"]⟩] := by decide
  have hagain := (plan_settles affected ["b"] pools).2 hpools
  rw [hplan] at hagain
  exact ⟨hpools, hplan, hagain⟩

end ReviewRota.Repair
