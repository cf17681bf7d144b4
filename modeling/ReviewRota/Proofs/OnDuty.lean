import Mathlib
import ReviewRota.Proofs.Calls
import ReviewRota.Proofs.Creation

/-!
# Who reviews open pull requests

If services follow one another, and nobody is made inactive alone, then whoever reviews an open
pull request is active: a team that goes off duty leaves no reviewers behind, and whoever is added
to a list is active at that moment.  Replacing a reviewer may overlap with anything, as its last
step looks at the activity once more.
-/

namespace ReviewRota

open Database

namespace Database

variable {db db' : Database} {c : StoreCall} {userId team : String} {now : Int64}

def OnDuty (db : Database) : Prop :=
  ∀ id p, db.pullRequest? id = some p → p.status = .opened → ∀ r ∈ p.reviewers, db.Active r

theorem onDuty_iff :
    db.OnDuty ↔ ∀ row ∈ db.pullRequests.rows, row.status = .opened →
      ∀ r ∈ db.reviewersOf row.id, db.Active r := by
  constructor
  · intro h row hrow
    exact h row.id _ (pullRequest?_eq_some_iff.2 ⟨row, hrow, rfl, rfl⟩)
  · rintro h id p hp
    obtain ⟨row, hrow, rfl, rfl⟩ := pullRequest?_eq_some_iff.1 hp
    exact h row hrow

theorem active_of_transition (htransition : Transition db c db') (hactive : db.Active userId)
    (hstays : ¬ db.StandsDown userId c) : db'.Active userId := by
  by_contra hafter
  exact hstays (standsDown_of_transition htransition hactive hafter)

theorem active_standDown (hactive : db.Active userId) (hstays : userId ∉ db.activeMembers team) :
    (db.standDown team now).Active userId := by
  obtain ⟨u, hu, hflag⟩ := hactive
  refine ⟨u, ?_, hflag⟩
  simp [user?_standDown_eq, hu, hstays]

theorem active_of_mem_teammates {authorId : String}
    (h : userId ∈ (db.dismiss team now).teammates authorId) :
    (db.standDown team now).Active userId := by
  obtain ⟨u, hu, hflag⟩ := exists_of_mem_teammates h
  exact ⟨u, user?_standDown.trans hu, hflag⟩

theorem OnDuty.standDown (h : db.OnDuty) : (db.standDown team now).OnDuty := by
  rw [onDuty_iff] at h ⊢
  intro row hrow hopen r hr
  rw [pullRequests_standDown] at hrow
  rw [reviewersOf_standDown hrow] at hr
  split at hr
  · rcases mem_refill hr with ⟨hold, hstays⟩ | ⟨hnew, -⟩
    · exact active_standDown (h row hrow hopen r hold) hstays
    · exact active_of_mem_teammates hnew
  · next hunaffected =>
      have hstays : r ∉ db.activeMembers team := fun hgone =>
        hunaffected (affects_iff_of_mem.2 ⟨hopen, r, hr, hgone⟩)
      exact active_standDown (h row hrow hopen r hr) hstays

theorem OnDuty.transition (hdb : db.Layout) (h : db.OnDuty) (htransition : Transition db c db')
    (halone : ∀ userId, db.Active userId → db.StandsDown userId c →
      ∃ team now, c = .deactivateTeam team now)
    (hcreate : ∀ p, c = .createPullRequest p → ∀ r ∈ p.reviewers, db.Active r) : db'.OnDuty := by
  have hactive : (∀ team now, c ≠ .deactivateTeam team now) →
      ∀ userId, db.Active userId → db'.Active userId := by
    intro hc userId hactive
    refine active_of_transition htransition hactive fun hdown => ?_
    obtain ⟨team, now, heq⟩ := halone userId hactive hdown
    exact hc team now heq
  rw [onDuty_iff] at h ⊢
  intro row hrow hopen r hr
  cases htransition with
  | createTeam _ | setActive _ => exact hactive nofun r (h row hrow hopen r hr)
  | @createPullRequest p habsent _ hnodup _ =>
      refine hactive nofun r ?_
      rcases Table.mem_insert.1 hrow with rfl | ⟨hold, hne⟩
      · have hlist := reviewersOf_addPullRequest hdb.consistent habsent hnodup
        exact hcreate p rfl r (hlist ▸ hr)
      · rw [reviewersOf_addPullRequest_of_ne hne] at hr
        exact h row hold hopen r hr
  | @setMerged id now =>
      obtain ⟨q, hq, rfl⟩ := List.mem_map.1 hrow
      have hr : r ∈ db.reviewersOf (merging id now q).id := hr
      rw [merging_id] at hr
      refine hactive nofun r (h q hq ?_ r hr)
      unfold merging at hopen
      split at hopen
      · cases hopen
      · exact hopen
  | @replaceReviewer id old new hcan =>
      refine hactive nofun r ?_
      rw [pullRequests_swapReviewer] at hrow
      by_cases hid : row.id = id
      · obtain ⟨hold, -, hnew, hfresh⟩ := canReplace_iff.1 hcan
        rw [hid, reviewersOf_swapReviewer hold hfresh hdb.positions_nodup] at hr
        rcases mem_of_mem_replace hr with rfl | hr
        · exact hnew
        · exact h row hrow hopen r (hid ▸ hr)
      · rw [reviewersOf_swapReviewer_of_ne hid] at hr
        exact h row hrow hopen r hr
  | deactivateTeam _ => exact onDuty_iff.1 (onDuty_iff.2 h).standDown row hrow hopen r hr

end Database

namespace Trace

section Sequential

variable {contract : Contract} {t : Trace contract} {i n : Nat} {m m' : Move} {client : Client}

/-- From its first call to its end a service has the store to itself, unless it replaces a
reviewer. -/
def Sequential (t : Trace contract) : Prop :=
  ∀ i j n m client, t.history i n ≠ [] → t.client? i n = some client → t.move? j n = some m →
    j ≠ i → (∃ id old, client.action = .reassign id old) ∨ ∃ result, client.rest = .done result

theorem database_eq_of_sequential (h : t.Sequential) (hmove : t.move? i n = some m)
    (hclient : t.client? i n = some client) (haction : ∀ id old, client.action ≠ .reassign id old)
    (hm' : m' ∈ t.history i n) : t.database n = t.database m'.time := by
  obtain ⟨hlt, hmove'⟩ := mem_history.1 hm'
  obtain ⟨-, -, earlier, -, -, hearlier, -⟩ := move?_eq_some hmove'
  refine database_eq_of_silent (Nat.le_of_lt hlt) fun l hle hln => ?_
  rcases t.database_succ l with hsame | ⟨j, other, hother⟩
  · exact hsame
  by_cases hji : j = i
  · subst hji
    have hmem : other ∈ t.history j n := by
      rw [mem_history, time_of_move? hother]
      exact ⟨hln, hother⟩
    obtain ⟨hbefore, hafter⟩ := database_of_move? hother
    rw [← hbefore, ← hafter]
    exact silent_of_mem_history hmove hmem
  · have hlater : m'.time < l := by
      refine Nat.lt_of_le_of_ne hle fun heq => hji ?_
      exact eq_of_acts (acts_of_move? hother) (acts_of_move? (heq ▸ hmove'))
    have hhistory : t.history i l ≠ [] := List.ne_nil_of_mem (mem_history.2 ⟨hlater, hmove'⟩)
    obtain ⟨rest, hrest⟩ := client?_of_le hle hearlier
    rcases h i j l other _ hhistory hrest hother hji with ⟨id, old, hreassign⟩ | ⟨result, hdone⟩
    · obtain ⟨rest', hrest'⟩ := client?_of_le (Nat.le_of_lt hln) hrest
      rw [hclient] at hrest'
      cases hrest'
      exact absurd hreassign (haction id old)
    · -- Who has ended makes no call at turn `n`.
      have hdone : rest = .done result := hdone
      rw [hdone] at hrest
      rw [move?_of_done (Nat.le_of_lt hln) hrest] at hmove
      cases hmove

end Sequential

end Trace

def Client.yields : Client → Bool
  | ⟨.reassign .., _⟩ | ⟨_, .done _⟩ => true
  | _ => false

def StoreCall.keepsOnDuty (db : Database) : StoreCall → Bool
  | .setActive _ isActive _ => isActive
  | .createTeam _ users _ => users.all fun u => u.isActive || (db.user? u.id).isNone
  | _ => true

def System.orderly (s : System) : Turn → Bool
  | .act j _ _ =>
      (s.clients.zipIdx.all fun (client, i) => i == j || client.yields) &&
        match s.clients[j]? with
        | some ⟨_, .call c _⟩ => c.keepsOnDuty s.store.database
        | _ => true
  | .idle | .arrive _ | .disturb .. => true

namespace Trace

section Orderly

variable {contract : Contract} {t : Trace contract} {turns : List Turn} {i j n : Nat} {m : Move}
  {client : Client}

theorem orderly_of_along {h : (∅ : System).Allows contract turns}
    (halong : System.Along System.orderly ∅ turns = true) (n : Nat) :
    ((ofList turns h).state n).orderly ((ofList turns h).turns n) = true := by
  rcases Nat.lt_or_ge n turns.length with hlt | hge
  · have hturn := holds_of_along halong hlt
    rwa [← after_getD] at hturn
  · have hidle : (ofList turns h).turns n = .idle := by simp [ofList, hge]
    rw [hidle]
    rfl

theorem sequential_of_orderly (h : ∀ n, (t.state n).orderly (t.turns n) = true) :
    t.Sequential := by
  intro i j n m client _ hclient hmove hne
  obtain ⟨chosen, now, -, -, hturn, -⟩ := move?_eq_some hmove
  have hn := h n
  rw [hturn, System.orderly, Bool.and_eq_true, List.all_eq_true] at hn
  have hyields : client.yields = true := by
    have hi := hn.1 (client, i) (List.mk_mem_zipIdx_iff_getElem?.2 hclient)
    simpa [hne.symm] using hi
  unfold Client.yields at hyields
  split at hyields
  · next id old _ => exact .inl ⟨id, old, rfl⟩
  · exact .inr ⟨_, rfl⟩
  · cases hyields

theorem keepsOnDuty_of_orderly (h : ∀ n, (t.state n).orderly (t.turns n) = true)
    (hmove : t.move? i n = some m) : m.call.keepsOnDuty (t.database n) = true := by
  obtain ⟨chosen, now, client, next, hturn, hclient, hrest, -⟩ := move?_eq_some hmove
  have hcalls : (t.state n).clients[i]? = some ⟨client.action, .call m.call next⟩ := by
    rw [← hrest]
    exact hclient
  have hn := h n
  rw [hturn, System.orderly, Bool.and_eq_true, hcalls] at hn
  exact hn.2

end Orderly

/-- In such a run every reviewer of every open pull request is active in every state. -/
theorem reviewers_on_duty (t : Trace .members) (hsequential : t.Sequential)
    (hflags : ∀ i n m id now, t.move? i n = some m → m.call ≠ .setActive id false now)
    (hteams : ∀ i n m name users now, t.move? i n = some m → m.call = .createTeam name users now →
      ∀ u ∈ users, u.isActive = false → (t.database n).user? u.id = none) (n : Nat) :
    (t.database n).OnDuty := by
  refine t.kept (P := OnDuty) (k := 0) (fun _ _ h => by cases h)
    (fun n i m hmove ih htransition => ?_) (Nat.zero_le n)
  refine ih.transition (t.layout n) htransition (fun userId hactive hdown => ?_)
    fun p hcall r hr => ?_
  · cases hcall : m.call with
    | setActive id isActive now =>
        rw [hcall] at hdown
        obtain ⟨-, rfl⟩ := hdown
        exact absurd hcall (hflags i n m id now hmove)
    | createTeam name users now =>
        rw [hcall] at hdown
        obtain ⟨u, hu, rfl, hflag⟩ := hdown
        obtain ⟨v, hv, -⟩ := hactive
        rw [hteams i n m name users now hmove hcall u hu hflag] at hv
        cases hv
    | deactivateTeam team now => exact ⟨team, now, rfl⟩
    | _ => rw [hcall] at hdown; cases hdown
  · have hfounded := founded_of_move? hmove
    rw [hcall] at hfounded
    obtain ⟨-, -, author, -, roster, ⟨look, hlook, hroster⟩, hchosen⟩ := hfounded
    obtain ⟨client, hclient, hasks⟩ := asks_of_move? hmove
    rw [hcall] at hasks
    have haction : ∀ id old, client.action ≠ .reassign id old := by
      intro id old haction
      rw [haction] at hasks
      cases hasks
    rw [database_eq_of_sequential hsequential hmove hclient haction hlook]
    exact active_of_candidate hlook hroster (hchosen hr)

def overlappingTurns : List Turn :=
  .flatten [
    [.arrive (.createTeam "web" [⟨"a", "Ann", true⟩, ⟨"b", "Bob", true⟩, ⟨"c", "Cid", true⟩,
      ⟨"d", "Dan", true⟩, ⟨"e", "Eve", true⟩])], .replicate 4 (.act 0 [] 5),
    [.arrive (.createPullRequest "p" "Fix" "a")], .replicate 7 (.act 1 ["b", "c"] 6),
    [.arrive (.reassign "p" "b")], .replicate 4 (.act 2 ["e"] 7),
    [.arrive (.createTeam "ops" [⟨"c", "Cid", true⟩])], .replicate 4 (.act 3 [] 8),
    [.arrive (.deactivateTeam "ops")], .replicate 2 (.act 4 [] 9), .replicate 2 (.act 2 [] 10)]

def overlapping : Trace .members := .ofList overlappingTurns (of_decide_eq_true (by cbv))

theorem orderly_overlapping (n : Nat) :
    (overlapping.state n).orderly (overlapping.turns n) = true := by
  have halong : System.Along System.orderly ∅ overlappingTurns = true := by cbv
  exact orderly_of_along halong n

theorem reviewers_on_duty_overlapping :
    overlapping.Sequential ∧
      (∀ i n m id now, overlapping.move? i n = some m → m.call ≠ .setActive id false now) ∧
      (∀ i n m name users now, overlapping.move? i n = some m →
        m.call = .createTeam name users now → ∀ u ∈ users, u.isActive = false →
          (overlapping.database n).user? u.id = none) ∧
      (overlapping.database 28).reviewersOf "p" = ["e", "d"] ∧
      (overlapping.database 28).OnDuty := by
  have hsequential := sequential_of_orderly orderly_overlapping
  have hflags : ∀ i n m id now, overlapping.move? i n = some m →
      m.call ≠ .setActive id false now := by
    intro i n m id now hmove hcall
    have hkeeps := keepsOnDuty_of_orderly orderly_overlapping hmove
    rw [hcall] at hkeeps
    cases hkeeps
  have hteams : ∀ i n m name users now, overlapping.move? i n = some m →
      m.call = .createTeam name users now → ∀ u ∈ users, u.isActive = false →
        (overlapping.database n).user? u.id = none := by
    intro i n m name users now hmove hcall u hu hinactive
    have hkeeps := keepsOnDuty_of_orderly orderly_overlapping hmove
    rw [hcall, StoreCall.keepsOnDuty, List.all_eq_true] at hkeeps
    simpa [hinactive] using hkeeps u hu
  have hlist : (overlapping.database 28).reviewersOf "p" = ["e", "d"] := by cbv
  exact ⟨hsequential, hflags, hteams, hlist,
    overlapping.reviewers_on_duty hsequential hflags hteams 28⟩

end Trace

end ReviewRota
