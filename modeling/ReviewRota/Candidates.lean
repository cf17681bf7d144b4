import ReviewRota.User

/-!
# Who may be picked as a reviewer
-/

namespace ReviewRota

/-- The active users of a pool except the author and the excluded, in pool order. -/
def candidates (authorId : String) (exclude : List String) (pool : List User) : List String :=
  (pool.filter fun u => u.isActive && u.id ≠ authorId && !exclude.contains u.id).map User.id

theorem mem_candidates {authorId : String} {exclude : List String} {pool : List User}
    {id : String} :
    id ∈ candidates authorId exclude pool ↔
      id ≠ authorId ∧ id ∉ exclude ∧ ∃ u ∈ pool, u.id = id ∧ u.isActive := by
  simp only [candidates, List.mem_map, List.mem_filter, Bool.and_eq_true, decide_eq_true_eq,
    Bool.not_eq_true', List.contains_eq_mem, decide_eq_false_iff_not]
  constructor
  · rintro ⟨u, ⟨hu, ⟨ha, hn⟩, he⟩, rfl⟩
    exact ⟨hn, he, u, hu, rfl, ha⟩
  · rintro ⟨hn, he, u, hu, rfl, ha⟩
    exact ⟨u, ⟨hu, ⟨ha, hn⟩, he⟩, rfl⟩

end ReviewRota
