import Mathlib
import ReviewRota.Proofs.Rosters

/-!
# Deactivations and the number of parameters

A deactivation asks for the pull requests of all members at once, and for the reviewers of all these
pull requests at once.  With more of them than a statement takes parameters it is refused, however
healthy the store is; otherwise it does just what it should.
-/

namespace ReviewRota

open Database

namespace Trace

variable {contract : Contract}

/-- In every state a deactivation without failures from outside has the whole outcome, unless there
are too many members or pull requests; then it leaves everything as it was. -/
theorem deactivation (t : Trace contract) (n : Nat) (team : String) (now : Int64)
    (hopen : (t.store n).isOpen = true) (hrejects : ∀ c, (t.store n).rejects c = false)
    (hteam : (t.database n).hasTeam team = true) :
    let reply := (t.store n).perform (.deactivateTeam team now)
    ((t.database n).Bindable team → ∃ summary, reply.result = .ok summary ∧
      OffDuty team ((t.database n).activeMembers team) summary (t.database n)
        reply.store.database) ∧
    (¬ (t.database n).Bindable team →
      (∃ during, reply.result = .error (.storage .tooManyParameters (some during))) ∧
        reply.store = t.store n) := by
  have hdb := (t.layout n).consistent
  refine ⟨fun hbindable => ?_, fun hbindable => ?_⟩
  · obtain ⟨hresult, hafter⟩ := Store.perform_of_effect (c := .deactivateTeam team now) hopen
      (deactivateTeam_of_bindable hdb hrejects hteam hbindable)
    refine ⟨_, hresult, ?_⟩
    rw [hafter]
    exact offDuty_standDown hdb
  · obtain ⟨during, heffect⟩ := deactivateTeam_of_not_bindable now hdb hrejects hteam hbindable
    obtain ⟨hresult, hstore⟩ := Store.perform_of_error (c := .deactivateTeam team now) hopen heffect
    exact ⟨⟨during, hresult⟩, hstore⟩

theorem deactivation_staffed :
    (staffed.store 14).isOpen = true ∧ (∀ c, (staffed.store 14).rejects c = false) ∧
      (staffed.database 14).hasTeam "web" = true ∧ (staffed.database 14).Bindable "web" ∧
      ∃ summary, ((staffed.store 14).perform (.deactivateTeam "web" 7)).result = .ok summary ∧
        OffDuty "web" ((staffed.database 14).activeMembers "web") summary (staffed.database 14)
          ((staffed.store 14).perform (.deactivateTeam "web" 7)).store.database :=
  have hopen : (staffed.store 14).isOpen = true := by decide +kernel
  have hrejects : ∀ c, (staffed.store 14).rejects c = false := fun _ => rfl
  have hteam : (staffed.database 14).hasTeam "web" = true := by decide +kernel
  have hbindable : (staffed.database 14).Bindable "web" := of_decide_eq_true (by cbv)
  ⟨hopen, hrejects, hteam, hbindable,
    (staffed.deactivation 14 "web" 7 hopen hrejects hteam).1 hbindable⟩

def crowd : List Member :=
  (List.range (parameterLimit + 1)).map fun i => ⟨"u" ++ i.repr, "", true⟩

theorem sound_crowd : Service.Sound crowd where
  filled m hm := by
    obtain ⟨i, -, rfl⟩ := List.mem_map.1 hm
    have hu : Text.isBlankChar 'u' = false := by decide
    rw [Text.isBlank, String.toList_append, List.all_append]
    simp [hu]
  distinct := by
    rw [crowd, List.map_map]
    refine List.nodup_range.map fun i j hij => Nat.repr_inj.1 ?_
    have hchars := congrArg String.toList hij
    simp only [Function.comp_apply, String.toList_append] at hchars
    exact String.toList_inj.1 (List.append_cancel_left hchars)

theorem length_activeMembers_crowd :
    (((∅ : Database).addTeam "web" (crowd.map (·.joining "web")) 0).activeMembers "web").length =
      parameterLimit + 1 := by
  have hperm := roster_addTeam_perm sound_crowd.distinct 0 .empty
    (show (∅ : Database).hasTeam "web" = false from rfl)
  have hactive : (crowd.map (·.joining "web")).filter (·.isActive) =
      crowd.map (·.joining "web") := by
    rw [List.filter_eq_self, crowd, List.map_map]
    intro u hu
    obtain ⟨i, -, rfl⟩ := List.mem_map.1 hu
    rfl
  rw [activeMembers_eq, List.length_map, (hperm.filter _).length_eq, hactive, List.length_map,
    crowd, List.length_map, List.length_range]

theorem exists_crowded : ∃ (t : Trace .members) (n : Nat), (t.store n).Calm ∧
    t.database n = (∅ : Database).addTeam "web" (crowd.map (·.joining "web")) 0 := by
  have hkeeps : (Action.createTeam "web" crowd).service.Keeps .members 0 ∅ .first :=
    Service.keeps_of_steady (fun _ _ => List.take_subset _ _) fun _ _ => rfl
  have hname : Text.isBlank "web" = false := by decide
  have hcalm : (∅ : Store).Calm := ⟨rfl, fun _ => rfl⟩
  obtain ⟨t, n, hstore⟩ := exists_outcome hkeeps
  rw [Action.service, Service.outcome_createTeam_of_absent hname sound_crowd hcalm rfl] at hstore
  exact ⟨t, n, ⟨congrArg Store.isOpen hstore, fun c => by rw [hstore]; rfl⟩,
    congrArg Store.database hstore⟩

/-- Success is not certain in every state: nothing keeps a team from being so large that one query
cannot name all of its members. -/
theorem deactivation_crowded :
    ¬ ∀ (contract : Contract) (t : Trace contract) (n : Nat) (team : String) (now : Int64),
      (t.store n).isOpen = true → (∀ c, (t.store n).rejects c = false) →
      (t.database n).hasTeam team = true →
      ∃ summary, ((t.store n).perform (.deactivateTeam team now)).result = .ok summary ∧
        OffDuty team ((t.database n).activeMembers team) summary (t.database n)
          ((t.store n).perform (.deactivateTeam team now)).store.database := by
  intro hclaim
  obtain ⟨t, n, hcalm, hdatabase⟩ := exists_crowded
  have hteam : (t.database n).hasTeam "web" = true := by
    rw [hdatabase]
    exact Table.contains_insert.2 (.inl rfl)
  have hcrowded : ¬ (t.database n).Bindable "web" := by
    rintro ⟨hmembers, -⟩
    rw [hdatabase, length_activeMembers_crowd] at hmembers
    exact Nat.not_succ_le_self _ hmembers
  obtain ⟨summary, hsuccess, -⟩ := hclaim .members t n "web" 1 hcalm.isOpen hcalm.permits hteam
  obtain ⟨during, hrefused⟩ := deactivateTeam_of_not_bindable 1 (t.layout n).consistent
    hcalm.permits hteam hcrowded
  rw [(Store.perform_of_error (c := .deactivateTeam "web" 1) hcalm.isOpen hrefused).1] at hsuccess
  cases hsuccess

end Trace

end ReviewRota
