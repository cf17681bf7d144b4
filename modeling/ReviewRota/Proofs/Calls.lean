import ReviewRota.Proofs.Conduct

/-!
# What services ask of the store

A service makes only the calls that belong to its action, and ends with the error of a call that
fails.  So every call comes after silent calls only: if it were to fail, the service would end with
an error, and an error leaves no trace.
-/

namespace ReviewRota

inductive Action.Asks : Action → StoreCall → Prop
  | hasTeam {name : String} {members : List Member} :
      Asks (.createTeam name members) (.hasTeam name)
  | createTeam {name : String} {members : List Member} {now : Int64} :
      Asks (.createTeam name members) (.createTeam name (members.map (·.joining name)) now)
  | setActive {id : String} {isActive : Bool} {now : Int64} :
      Asks (.setActive id isActive) (.setActive id isActive now)
  | hasPullRequest {id name authorId : String} :
      Asks (.createPullRequest id name authorId) (.hasPullRequest id)
  | author {id name authorId : String} :
      Asks (.createPullRequest id name authorId) (.user authorId)
  | teammates {id name authorId team : String} :
      Asks (.createPullRequest id name authorId) (.roster team)
  | createPullRequest {id name authorId : String} {p : PullRequest} (id_eq : p.id = id) :
      Asks (.createPullRequest id name authorId) (.createPullRequest p)
  | unmerged {id : String} : Asks (.merge id) (.pullRequest id)
  | setMerged {id : String} {now : Int64} : Asks (.merge id) (.setMerged id now)
  | reviewed {id old : String} : Asks (.reassign id old) (.pullRequest id)
  | reviewer {id old : String} : Asks (.reassign id old) (.user old)
  | substitutes {id old team : String} : Asks (.reassign id old) (.roster team)
  | replaceReviewer {id old new : String} : Asks (.reassign id old) (.replaceReviewer id old new)
  | deactivateTeam {name : String} {now : Int64} :
      Asks (.deactivateTeam name) (.deactivateTeam name now)

namespace Service

theorem require_eq_ok {field text : String} {u : Unit} :
    require field text = .ok u ↔ Text.isBlank text = false := by
  unfold require
  split <;> simp_all

theorem checkMembers_eq_ok {members : List Member} {seen : List String} {u : Unit} :
    checkMembers seen members = .ok u ↔
      (∀ m ∈ members, Text.isBlank m.userId = false ∧ m.userId ∉ seen) ∧
        (members.map Member.userId).Nodup := by
  induction members generalizing seen with
  | nil => simp [checkMembers]
  | cons m rest ih =>
      rw [checkMembers, bind_eq_ok]
      simp only [require_eq_ok]
      by_cases hseen : m.userId ∈ seen
      · simp [hseen, throw_bind]
      · simp only [List.contains_eq_mem, hseen, decide_false, Bool.false_eq_true, if_false, ih,
          List.mem_cons, not_or, List.map_cons, List.nodup_cons, List.mem_map]
        grind

variable {α β : Type} {asks : StoreCall → Prop}

/-- Whatever it is answered, the service makes only such calls, and an error of one is its own. -/
def Heeds (asks : StoreCall → Prop) : Service α → Prop
  | .done _ => True
  | .call c next => asks c ∧ (∀ e, next (.error e) = .done (.error e)) ∧
      ∀ answer, (next (.ok answer)).Heeds asks
  | .choose _ _ next => ∀ chosen, (next chosen).Heeds asks
  | .readClock next => ∀ now, (next now).Heeds asks
  | .note _ next => next.Heeds asks

theorem heeds_bind {s : Service α} {f : α → Service β} (hs : s.Heeds asks)
    (hf : ∀ a, (f a).Heeds asks) : (s >>= f).Heeds asks := by
  change (s.bind f).Heeds asks
  induction s with
  | done result =>
      cases result with
      | error e => trivial
      | ok a => exact hf a
  | call c next ih =>
      obtain ⟨hc, herror, hok⟩ := hs
      refine ⟨hc, fun e => ?_, fun answer => ih _ (hok answer)⟩
      change (next (.error e)).bind f = .done (.error e)
      rw [herror, Service.bind]
  | choose candidates max next ih => exact fun chosen => ih _ (hs chosen)
  | readClock next ih => exact fun now => ih _ (hs now)
  | note event next ih => exact ih hs

theorem heeds_ask {c : StoreCall} (hc : asks c) : (ask c).Heeds asks :=
  ⟨hc, fun _ => rfl, fun _ => trivial⟩

theorem heeds_ofExcept {r : Except Error α} : (ofExcept r).Heeds asks := trivial

theorem heeds_orFail {e : Error} {o : Option α} : (orFail e o).Heeds asks := by
  cases o <;> trivial

theorem heeds_choice {candidates : List String} {max : Nat} :
    (choice candidates max).Heeds asks := fun _ => trivial

theorem heeds_now : now.Heeds asks := fun _ => trivial

theorem heeds_log {event : Event} : (log event).Heeds asks := trivial

theorem Heeds.mono {asks' : StoreCall → Prop} {s : Service α} (h : s.Heeds asks)
    (himp : ∀ c, asks c → asks' c) : s.Heeds asks' := by
  induction s with
  | done result => trivial
  | call c next ih => exact ⟨himp c h.1, h.2.1, fun answer => ih _ (h.2.2 answer)⟩
  | choose candidates max next ih => exact fun chosen => ih _ (h chosen)
  | readClock next ih => exact fun now => ih _ (h now)
  | note event next ih => exact ih h

theorem Heeds.outline {contract : Contract} {s : Service α} {h : List Move} (hs : s.Heeds asks) :
    s.Outline contract (fun _ c => asks c) (fun _ _ => True) h := by
  induction s generalizing h with
  | done result => trivial
  | call c next ih =>
      refine ⟨hs.1, fun time s => ?_⟩
      cases hresult : (s.perform c).result with
      | error e =>
          rw [hs.2.1]
          trivial
      | ok answer => exact ih _ (hs.2.2 answer)
  | choose candidates max next ih => exact fun chosen _ => ih _ (hs chosen)
  | readClock next ih => exact fun now => ih _ (hs now)
  | note event next ih => exact ih hs

end Service

namespace Action

open Service

theorem heeds_createTeam {name : String} {members : List Member} :
    (Service.createTeam name members).Heeds (createTeam name members).Asks := by
  refine heeds_bind heeds_ofExcept fun _ => heeds_bind heeds_ofExcept fun _ => ?_
  refine heeds_bind (heeds_ask .hasTeam) fun found => ?_
  split
  · trivial
  refine heeds_bind heeds_now fun _ => heeds_bind (heeds_ask .createTeam) fun _ => ?_
  exact heeds_bind heeds_log fun _ => trivial

theorem heeds_setActive {id : String} {isActive : Bool} :
    (Service.setActive id isActive).Heeds (setActive id isActive).Asks := by
  refine heeds_bind heeds_ofExcept fun _ => heeds_bind heeds_now fun _ => ?_
  refine heeds_bind (heeds_ask .setActive) fun _ => heeds_bind heeds_orFail fun _ => ?_
  exact heeds_bind heeds_log fun _ => trivial

theorem heeds_createPullRequest {id name authorId : String} :
    (Service.createPullRequest id name authorId).Heeds
      (createPullRequest id name authorId).Asks := by
  refine heeds_bind heeds_ofExcept fun _ => heeds_bind heeds_ofExcept fun _ => ?_
  refine heeds_bind heeds_ofExcept fun _ => heeds_bind (heeds_ask .hasPullRequest) fun found => ?_
  split
  · trivial
  refine heeds_bind (heeds_ask .author) fun _ => heeds_bind heeds_orFail fun _ => ?_
  refine heeds_bind (heeds_ask .teammates) fun _ => heeds_bind heeds_choice fun reviewers => ?_
  refine heeds_bind heeds_now fun _ => ?_
  refine heeds_bind (heeds_ask (.createPullRequest rfl)) fun _ => ?_
  exact heeds_bind heeds_log fun _ => trivial

theorem heeds_merge {id : String} : (Service.merge id).Heeds (merge id).Asks := by
  refine heeds_bind heeds_ofExcept fun _ => heeds_bind (heeds_ask .unmerged) fun _ => ?_
  refine heeds_bind heeds_orFail fun p => ?_
  split
  · exact heeds_bind heeds_log fun _ => trivial
  refine heeds_bind heeds_now fun _ => heeds_bind (heeds_ask .setMerged) fun _ => ?_
  exact heeds_bind heeds_orFail fun _ => heeds_bind heeds_log fun _ => trivial

theorem heeds_reassign {id old : String} :
    (Service.reassign id old).Heeds (reassign id old).Asks := by
  refine heeds_bind heeds_ofExcept fun _ => heeds_bind heeds_ofExcept fun _ => ?_
  refine heeds_bind (heeds_ask .reviewed) fun _ => heeds_bind heeds_orFail fun p => ?_
  refine heeds_bind heeds_ofExcept fun _ => ?_
  split
  · trivial
  refine heeds_bind (heeds_ask .reviewer) fun _ => heeds_bind heeds_orFail fun _ => ?_
  refine heeds_bind (heeds_ask .substitutes) fun _ => heeds_bind heeds_choice fun _ => ?_
  refine heeds_bind heeds_orFail fun _ => heeds_bind (heeds_ask .replaceReviewer) fun _ => ?_
  exact heeds_bind heeds_orFail fun _ => heeds_bind heeds_log fun _ => trivial

theorem heeds_deactivateTeam {name : String} :
    (Service.deactivateTeam name).Heeds (deactivateTeam name).Asks :=
  heeds_bind heeds_ofExcept fun _ => heeds_bind heeds_now fun _ => heeds_ask .deactivateTeam

theorem heeds_service (a : Action) : a.service.Heeds a.Asks := by
  cases a with
  | createTeam => exact heeds_createTeam
  | setActive => exact heeds_setActive
  | createPullRequest => exact heeds_createPullRequest
  | merge => exact heeds_merge
  | reassign => exact heeds_reassign
  | deactivateTeam => exact heeds_deactivateTeam

end Action

theorem Service.silent_of_outline {a : Action} {contract : Contract} {h : List Move}
    {c : StoreCall} {next : Except Error c.Answer → Service a.Answer}
    (hheeds : (Service.call c next).Heeds a.Asks)
    (houtline : (Service.call c next).Outline contract (StoreCall.Founded contract) a.Closing h) :
    ∀ m ∈ h, m.Silent := by
  have hclosed : ((⟨∅, fun _ => false, false⟩ : Store).perform c).result =
      .error (.storage .poolClosed c.opening) := rfl
  have hending := houtline.2 0 ⟨∅, fun _ => false, false⟩
  rw [hclosed, hheeds.2.1] at hending
  exact fun m hm => hending m (.tail _ hm)

namespace Trace

variable {contract : Contract} {t : Trace contract} {i k n : Nat} {m : Move} {client : Client}

theorem heeds_of_client? (h : t.client? i n = some client) :
    client.rest.Heeds client.action.Asks := by
  induction n generalizing client with
  | zero => cases h
  | succ n ih =>
      rcases client?_succ h with ⟨hclient, -⟩ | ⟨⟨a, rfl⟩, -⟩ |
        ⟨chosen, now, ⟨action, rest⟩, -, hclient, rfl⟩
      · exact ih hclient
      · exact a.heeds_service
      · have hrest := ih hclient
        cases rest with
        | done result => trivial
        | call c next =>
            change (next ((t.store n).perform c).result).Heeds _
            cases ((t.store n).perform c).result with
            | error e =>
                rw [hrest.2.1]
                trivial
            | ok answer => exact hrest.2.2 answer
        | choose candidates max next => exact hrest chosen
        | readClock next => exact hrest now
        | note event next => exact hrest

theorem asks_of_move? (h : t.move? i n = some m) :
    ∃ client, t.client? i n = some client ∧ client.action.Asks m.call := by
  obtain ⟨-, -, client, next, -, hclient, hrest, -⟩ := move?_eq_some h
  have hheeds := heeds_of_client? hclient
  rw [hrest] at hheeds
  exact ⟨client, hclient, hheeds.1⟩

theorem silent_of_mem_history {m' : Move} (h : t.move? i n = some m) (hm' : m' ∈ t.history i n) :
    m'.Silent := by
  obtain ⟨-, -, client, next, -, hclient, hrest, -⟩ := move?_eq_some h
  have hheeds := heeds_of_client? hclient
  have houtline := t.outline Action.outline_service hclient
  rw [hrest] at hheeds houtline
  exact Service.silent_of_outline hheeds houtline m' hm'

theorem client?_of_failed {e : Error} (h : t.move? i n = some m)
    (herror : (m.before.perform m.call).result = .error e) (hclient : t.client? i n = some client) :
    t.client? i (n + 1) = some ⟨client.action, .done (.error e)⟩ := by
  obtain ⟨chosen, now, client', next, hturn, hclient', hrest, -, hbefore⟩ := move?_eq_some h
  rw [hclient] at hclient'
  cases hclient'
  have hheeds := heeds_of_client? hclient
  rw [hrest] at hheeds
  rw [client?, state_succ, hturn]
  simp only [System.turn, System.clients_act, if_pos]
  change Option.map _ (t.client? i n) = _
  rw [hclient, Option.map_some, hrest]
  change some (⟨client.action, next ((t.store n).perform m.call).result⟩ : Client) = _
  rw [← hbefore, herror, hheeds.2.1]

theorem client?_of_le (hle : k ≤ n) (h : t.client? i k = some client) :
    ∃ rest, t.client? i n = some ⟨client.action, rest⟩ := by
  induction hle with
  | refl => exact ⟨client.rest, h⟩
  | @step n hle ih =>
      obtain ⟨rest, hrest⟩ := ih
      cases hclient : t.client? i (n + 1) with
      | none =>
          rw [client?_eq_none_of_le (Nat.le_succ n) hclient] at hrest
          cases hrest
      | some later =>
          rcases client?_succ hclient with ⟨hsame, -⟩ | ⟨-, hnone⟩ | ⟨_, _, _, -, hsame, rfl⟩
          · rw [hrest] at hsame
            cases hsame
            exact ⟨rest, rfl⟩
          · rw [hrest] at hnone
            cases hnone
          · rw [hrest] at hsame
            cases hsame
            exact ⟨_, rfl⟩

end Trace

end ReviewRota
