import ReviewRota.Proofs.Alone
import ReviewRota.Proofs.Calls
import ReviewRota.Proofs.Merging

/-!
# Many who create the same

Whether a team or a pull request is stored is asked before it is created, so that many clients may
find it absent and go on.  The store lets the first of them through and refuses the others, who
leave nothing behind.
-/

namespace ReviewRota

open Database

inductive Item where
  | team (name : String)
  | pullRequest (id : String)

def Item.taken : Item → Error
  | .team name => .teamExists name
  | .pullRequest id => .pullRequestExists id

def Database.stores (db : Database) : Item → Bool
  | .team name => db.hasTeam name
  | .pullRequest id => db.hasPullRequest id

def StoreCall.Creates (item : Item) : StoreCall → Prop
  | .createTeam name _ _ => .team name = item
  | .createPullRequest p => .pullRequest p.id = item
  | _ => False

def Action.Creates (db : Database) (item : Item) : Action → Prop
  | .createTeam name members =>
      .team name = item ∧ Text.isBlank name = false ∧
        (∀ m ∈ members, Text.isBlank m.userId = false) ∧ (members.map Member.userId).Nodup
  | .createPullRequest id name authorId =>
      .pullRequest id = item ∧ Text.isBlank id = false ∧ Text.isBlank name = false ∧
        Text.isBlank authorId = false ∧ ∃ author, db.user? authorId = some author
  | _ => False

def Contract.unrepeated : Contract := fun candidates _ chosen => chosen ⊆ candidates ∧ chosen.Nodup

instance (candidates : List String) (max : Nat) (chosen : List String) :
    Decidable (Contract.unrepeated candidates max chosen) :=
  inferInstanceAs (Decidable (chosen ⊆ candidates ∧ chosen.Nodup))

section Transitions

variable {db db' : Database} {c : StoreCall} {item : Item}

theorem stores_addTeam {name : String} {members : List User} {now : Int64} :
    (db.addTeam name members now).stores item = true ↔
      db.stores item = true ∨ .team name = item := by
  cases item with
  | team other =>
      have h := Table.contains_insert (t := db.teams) (a := ⟨name, now⟩) (k := other)
      simpa [Database.stores, hasTeam, addTeam, or_comm] using h
  | pullRequest id => simp [Database.stores, hasPullRequest, addTeam]

theorem stores_addPullRequest {p : PullRequest} :
    (db.addPullRequest p).stores item = true ↔
      db.stores item = true ∨ .pullRequest p.id = item := by
  cases item with
  | team name => simp [Database.stores, hasTeam, addPullRequest]
  | pullRequest other =>
      have h : (db.pullRequests.insert p.row).contains other = true ↔
          p.id = other ∨ db.pullRequests.contains other = true := Table.contains_insert
      simpa [Database.stores, hasPullRequest, addPullRequest, or_comm] using h

theorem stores_congr (hteams : db'.teams = db.teams)
    (hpulls : ∀ id, db'.pullRequests.contains id = db.pullRequests.contains id) :
    db'.stores item = db.stores item := by
  cases item with
  | team name => rw [Database.stores, Database.stores, hasTeam, hasTeam, hteams]
  | pullRequest id => exact hpulls id

theorem stores_transition (htransition : Transition db c db') :
    db'.stores item = true ↔ db.stores item = true ∨ c.Creates item := by
  cases htransition with
  | createTeam _ => exact stores_addTeam
  | createPullRequest _ _ _ _ => exact stores_addPullRequest
  | setActive _ => exact (or_iff_left id).symm
  | @setMerged other now =>
      have hsame : (db.markMerged other now).stores item = db.stores item :=
        stores_congr rfl fun _ => contains_markMerged
      rw [hsame]
      exact (or_iff_left id).symm
  | replaceReviewer _ =>
      rw [stores_congr teams_swapReviewer fun _ => by rw [pullRequests_swapReviewer]]
      exact (or_iff_left id).symm
  | deactivateTeam _ =>
      rw [stores_congr teams_standDown fun _ => by rw [pullRequests_standDown]]
      exact (or_iff_left id).symm

end Transitions

/-! ## Why a creation ends with an error -/

inductive Refusal (item : Item) (h : List Move) : Error → Prop
  | found {m : Move} (hm : m ∈ h) (hstored : m.before.database.stores item = true) :
      Refusal item h item.taken
  | orphaned {m : Move} {author : String} {e : Error} (hm : m ∈ h)
      (hanswered : m.Answered (.user author) none) : Refusal item h e
  | failed {m : Move} {c : StoreCall} {e : Error} (hm : m ∈ h) (hfailed : m.Failed c e) :
      Refusal item h e

namespace Service

variable {α β : Type} {contract : Contract} {h : List Move}

theorem outline_trivial {call : List Move → StoreCall → Prop}
    {post : List Move → Except Error α → Prop} {s : Service α} (hcall : ∀ h c, call h c)
    (hpost : ∀ h r, post h r) : s.Outline contract call post h := by
  induction s generalizing h with
  | done result => exact hpost h result
  | call c next ih => exact ⟨hcall h c, fun time s => ih _⟩
  | choose candidates max next ih => exact fun chosen _ => ih chosen
  | readClock next ih => exact fun now => ih now
  | note event next ih => exact ih

theorem outline_imp {call : List Move → StoreCall → Prop}
    {post post' : List Move → Except Error α → Prop} {s : Service α}
    (himp : ∀ h r, post h r → post' h r) (hs : s.Outline contract call post h) :
    s.Outline contract call post' h := by
  induction s generalizing h with
  | done result => exact himp h result hs
  | call c next ih => exact ⟨hs.1, fun time s => ih _ (hs.2 time s)⟩
  | choose candidates max next ih => exact fun chosen hchosen => ih chosen (hs chosen hchosen)
  | readClock next ih => exact fun now => ih now (hs now)
  | note event next ih => exact ih hs

end Service

namespace Action

variable {contract : Contract} {db : Database} {item : Item}

def Refused (item : Item) {α : Type} (h : List Move) (r : Except Error α) : Prop :=
  ∀ e, r = .error e → Refusal item h e

theorem refused_ok {α : Type} {a : α} {h : List Move} : Refused item h (.ok a) := nofun

theorem refused_error {α : Type} {e : Error} {h : List Move} (he : Refusal item h e) :
    Refused item h (.error e : Except Error α) := by
  intro e' he'
  cases he'
  exact he

theorem refused_createTeam {name : String} {members : List Member}
    (ha : (Action.createTeam name members).Creates db item) :
    (Service.createTeam name members).Outline contract (fun _ _ => True) (Refused item) [] := by
  obtain ⟨rfl, hname, hids, hnodup⟩ := ha
  have hcheck : Service.checkMembers [] members = .ok () :=
    Service.checkMembers_eq_ok.2 ⟨fun m hm => ⟨hids m hm, nofun⟩, hnodup⟩
  have hrequire : Service.require "team_name" name = .ok () := Service.require_eq_ok.2 hname
  rw [Service.createTeam, hrequire, hcheck]
  refine Service.outline_ofExcept nofun fun _ _ => Service.outline_ofExcept nofun fun _ _ => ?_
  refine Service.outline_ask trivial (fun m e hm => ?_) fun m found hm => ?_
  · exact refused_error (.failed (.head _) hm)
  · cases found with
    | true => exact refused_error (.found (.head _) (Prod.mk.inj (Except.ok.inj hm.effect)).1)
    | false =>
        refine Service.outline_now fun now => ?_
        refine Service.outline_ask trivial (fun m e hm => ?_) fun m _ hm => ?_
        · exact refused_error (.failed (.head _) hm)
        · exact Service.outline_log refused_ok

theorem refused_createPullRequest {id name authorId : String}
    (ha : (Action.createPullRequest id name authorId).Creates db item) :
    (Service.createPullRequest id name authorId).Outline contract (fun _ _ => True)
      (Refused item) [] := by
  obtain ⟨rfl, hid, hname, hauthor, -⟩ := ha
  have hrequire : ∀ field text, Text.isBlank text = false →
      Service.require field text = .ok () := fun _ _ => Service.require_eq_ok.2
  rw [Service.createPullRequest, hrequire _ _ hid, hrequire _ _ hname, hrequire _ _ hauthor]
  refine Service.outline_ofExcept nofun fun _ _ => Service.outline_ofExcept nofun fun _ _ => ?_
  refine Service.outline_ofExcept nofun fun _ _ => ?_
  refine Service.outline_ask trivial (fun m e hm => ?_) fun m found hm => ?_
  · exact refused_error (.failed (.head _) hm)
  cases found with
  | true => exact refused_error (.found (.head _) (Prod.mk.inj (Except.ok.inj hm.effect)).1)
  | false =>
      refine Service.outline_ask trivial (fun m e hm => ?_) fun m _ hm => ?_
      · exact refused_error (.failed (.head _) hm)
      refine Service.outline_orFail (fun hnone => ?_) fun author _ => ?_
      · exact refused_error (.orphaned (.head _) (hnone ▸ hm))
      refine Service.outline_ask trivial (fun m e hm => ?_) fun m roster _ => ?_
      · exact refused_error (.failed (.head _) hm)
      refine Service.outline_choice fun reviewers _ => Service.outline_now fun now => ?_
      refine Service.outline_ask trivial (fun m e hm => ?_) fun m _ hm => ?_
      · exact refused_error (.failed (.head _) hm)
      · exact Service.outline_log refused_ok

theorem refused_service (db : Database) (item : Item) (a : Action) :
    a.service.Outline contract (fun _ _ => True)
      (fun h r => a.Creates db item → Refused item h r) [] := by
  by_cases ha : a.Creates db item
  · refine Service.outline_imp (fun _ _ hrefused _ => hrefused) ?_
    cases a with
    | createTeam => exact refused_createTeam ha
    | createPullRequest => exact refused_createPullRequest ha
    | setActive | merge | reassign | deactivateTeam => cases ha
  · exact Service.outline_trivial (fun _ _ => trivial) fun _ _ h => absurd h ha

end Action

namespace Trace

variable {contract : Contract} {t : Trace contract} {i j k n : Nat} {item : Item} {m : Move}
  {a : Action}

theorem stores_of_le (hle : k ≤ n) (h : (t.database k).stores item = true) :
    (t.database n).stores item = true :=
  t.kept (P := fun db => db.stores item = true) h
    (fun _ _ _ _ hstored htransition => (stores_transition htransition).2 (.inl hstored)) hle

theorem exists_creation (hle : k ≤ n) (habsent : (t.database k).stores item = false)
    (hstored : (t.database n).stores item = true) :
    ∃ j i m, k ≤ j ∧ j < n ∧ t.move? i j = some m ∧ m.call.Creates item ∧
      (t.database j).stores item = false ∧ (t.database (j + 1)).stores item = true := by
  induction hle with
  | refl =>
      rw [habsent] at hstored
      cases hstored
  | @step n hle ih =>
      by_cases hbefore : (t.database n).stores item = true
      · obtain ⟨j, i, m, hj, hlt, h⟩ := ih hbefore
        exact ⟨j, i, m, hj, Nat.lt_succ_of_lt hlt, h⟩
      · rcases t.database_succ n with hsame | ⟨i, m, hmove⟩
        · rw [hsame] at hstored
          exact absurd hstored hbefore
        rcases transition_of_move? hmove with hsame | htransition
        · rw [hsame] at hstored
          exact absurd hstored hbefore
        have hcreates := ((stores_transition htransition).1 hstored).resolve_left hbefore
        exact ⟨n, i, m, hle, Nat.lt_succ_self n, hmove, hcreates, by simpa using hbefore, hstored⟩

/-- A client that comes after turn `k`, has ended at turn `n` and was to create the item, given
different candidates as reviewers. -/
structure Contends (t : Trace contract) (k n : Nat) (item : Item) (i : Nat) : Prop where
  absent : t.client? i k = none
  ended : ∃ a result, t.client? i n = some ⟨a, .done result⟩ ∧ a.Creates (t.database k) item
  picks : ∀ j, k ≤ j → j < n → t.Acts i j → (t.turns j).Allowed .unrepeated (t.state j)

/-- From turn `k` to turn `n`, without failures from outside, only contenders go to create an item
that is not there. -/
structure Contest (t : Trace contract) (k n : Nat) (item : Item) : Prop where
  le : k ≤ n
  absent : (t.database k).stores item = false
  calm : ∀ j, k ≤ j → j < n → (t.store j).Calm
  contends : ∀ i j m, k ≤ j → j < n → t.move? i j = some m → m.call.Creates item →
    t.Contends k n item i

/-! ## Errors in a contest -/

theorem le_time (hk : t.client? i k = none) (hm : m ∈ t.history i n) : k ≤ m.time := by
  by_contra hlt
  have hearlier := mem_history.2 ⟨Nat.lt_of_not_le hlt, (mem_history.1 hm).2⟩
  rw [history_eq_nil hk] at hearlier
  cases hearlier

theorem founded_since {strict : Contract} (hk : t.client? i k = none) (hle : k ≤ n)
    (hallowed : ∀ j, k ≤ j → j < n → t.Acts i j → (t.turns j).Allowed strict (t.state j))
    (hmove : t.move? i n = some m) : m.call.Founded strict (t.history i n) := by
  obtain ⟨-, -, client, next, -, hclient, hrest, -⟩ := move?_eq_some hmove
  have houtline := outline_since Action.outline_service hk hle hallowed hclient
  rw [hrest] at houtline
  exact houtline.1

theorem contains_user_of_looked {id : String} {u : User} (hm : m ∈ t.history i n)
    (hu : m.before.database.user? id = some u) : (t.database n).users.contains id = true := by
  obtain ⟨hlt, hmove⟩ := mem_history.1 hm
  rw [(database_of_move? hmove).1] at hu
  obtain ⟨u', hu'⟩ := (t.grows (Nat.le_of_lt hlt)).users id u hu
  exact contains_of_user? hu'

theorem taken_of_failed {e : Error} (hcalm : (t.store n).Calm) (hmove : t.move? i n = some m)
    (hcreates : m.call.Creates item) (hfounded : m.call.Founded .unrepeated (t.history i n))
    (herror : (m.before.perform m.call).result = .error e) :
    e = item.taken ∧ (t.database n).stores item = true := by
  rw [before_of_move? hmove, Store.result_perform hcalm.isOpen] at herror
  cases hcall : m.call with
  | createTeam name users now =>
      rw [hcall] at hcreates herror
      obtain rfl := hcreates
      simp only [StoreCall.effect, createTeam_of_permitted hcalm.permits] at herror
      split at herror
      · next hstored =>
          cases herror
          exact ⟨rfl, hstored⟩
      · cases herror
  | createPullRequest p =>
      rw [hcall] at hcreates herror hfounded
      obtain rfl := hcreates
      obtain ⟨-, -, author, ⟨look, hlook, hauthor⟩, roster, ⟨look', hlook', hroster⟩, hmembers,
        hnodup⟩ := hfounded
      have husers : ∀ r ∈ p.reviewers, (t.database n).users.contains r = true := by
        intro r hr
        obtain ⟨-, -, u, hu, rfl, -⟩ := mem_candidates.1 (hmembers hr)
        rw [← hroster.roster_eq] at hu
        exact contains_user_of_looked hlook' (mem_roster.1 hu).1
      have hcreate : createPullRequest (t.store n).rejects p (t.store n).database = _ :=
        createPullRequest_of_permitted hcalm.permits (t.layout n).consistent
          (contains_user_of_looked hlook hauthor.user?_eq) hnodup husers
      simp only [StoreCall.effect, hcreate] at herror
      split at herror
      · next hstored =>
          cases herror
          exact ⟨rfl, hstored⟩
      · cases herror
  | _ => rw [hcall] at hcreates; cases hcreates

theorem action_eq_of_done {client : Client} {result : Except Error a.Answer} (hle : k ≤ n)
    (hclient : t.client? i k = some client)
    (hdone : t.client? i n = some ⟨a, .done result⟩) : client.action = a := by
  obtain ⟨rest, hrest⟩ := client?_of_le hle hclient
  rw [hdone] at hrest
  cases hrest
  rfl

theorem looks_or_creates {db : Database} {c : StoreCall} (ha : a.Creates db item)
    (hasks : a.Asks c) : c.looks = true ∨ c.Creates item := by
  cases hasks with
  | createTeam => exact .inr ha.1
  | createPullRequest hid => exact .inr ((congrArg Item.pullRequest hid).trans ha.1)
  | hasTeam | hasPullRequest | author | teammates | unmerged | reviewed | reviewer | substitutes =>
      exact .inl rfl
  | setActive | setMerged | replaceReviewer | deactivateTeam => cases ha

section Contest

variable (h : t.Contest k n item)

include h

theorem taken_of_error {e : Error} (hi : t.Contends k n item i)
    (hdone : t.client? i n = some ⟨a, .done (.error e)⟩) :
    e = item.taken ∧ (t.database n).stores item = true := by
  obtain ⟨a', result, hended, hcreates⟩ := hi.ended
  rw [hdone] at hended
  cases hended
  have hrefusal : Refusal item (t.history i n) e :=
    t.outline (Action.refused_service (t.database k) item) hdone hcreates e rfl
  cases hrefusal with
  | @found m hm hstored =>
      obtain ⟨hlt, hmove⟩ := mem_history.1 hm
      rw [(database_of_move? hmove).1] at hstored
      exact ⟨rfl, stores_of_le (Nat.le_of_lt hlt) hstored⟩
  | @orphaned m author _ hm hanswered =>
      obtain ⟨hlt, hmove⟩ := mem_history.1 hm
      obtain ⟨client, hclient, hasks⟩ := asks_of_move? hmove
      rw [action_eq_of_done (Nat.le_of_lt hlt) hclient hdone, hanswered.1] at hasks
      cases hasks with
      | author =>
          obtain ⟨-, -, -, -, u, hu⟩ := hcreates
          obtain ⟨u', hu'⟩ := (t.grows (le_time hi.absent hm)).users author u hu
          have hnone := hanswered.user?_eq
          rw [(database_of_move? hmove).1, hu'] at hnone
          cases hnone
      | reviewer => cases hcreates
  | @failed m c _ hm hfailed =>
      obtain ⟨rfl, herror⟩ := hfailed
      obtain ⟨hlt, hmove⟩ := mem_history.1 hm
      have hle := le_time hi.absent hm
      have hcalm := h.calm m.time hle hlt
      obtain ⟨client, hclient, hasks⟩ := asks_of_move? hmove
      rw [action_eq_of_done (Nat.le_of_lt hlt) hclient hdone] at hasks
      rcases looks_or_creates hcreates hasks with hlooks | hcall
      · obtain ⟨answer, hok⟩ := Store.result_of_looks hcalm.isOpen hlooks
        rw [before_of_move? hmove, hok] at herror
        cases herror
      · have hfounded := founded_since hi.absent hle
          (fun j hj hjlt => hi.picks j hj (Nat.lt_trans hjlt hlt)) hmove
        obtain ⟨he, hstored⟩ := taken_of_failed hcalm hmove hcall hfounded herror
        exact ⟨he, stores_of_le (Nat.le_of_lt hlt) hstored⟩

end Contest

end Trace

end ReviewRota
