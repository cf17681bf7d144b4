import Mathlib
import ReviewRota.Proofs.Decision
import ReviewRota.Proofs.Sampling

/-!
# Creating a pull request undisturbed

Whether a pull request is created is decided by what is looked up first: when nobody comes in
between, whoever is picked is still a stored user when the rows are inserted, and the rows read back
as the list that was picked.
-/

namespace ReviewRota

open Database

def Contract.full : Contract := fun candidates max chosen =>
  if candidates.length ≤ max then chosen.Perm candidates
  else chosen ⊆ candidates ∧ chosen.Nodup ∧ chosen.length = max

namespace Contract

variable {candidates chosen : List String} {max : Nat}

theorem distinct_of_full (hcandidates : candidates.Nodup)
    (h : full candidates max chosen) :
    chosen ⊆ candidates ∧ chosen.Nodup ∧ chosen.length = min max candidates.length := by
  unfold full at h
  split at h
  · next hfits =>
      rw [Nat.min_eq_right hfits]
      exact ⟨h.subset, h.nodup_iff.2 hcandidates, h.length_eq⟩
  · next hmany =>
      rw [Nat.min_eq_left (by omega)]
      exact h

theorem full_seeded {stream : Random.Stream} (hcandidates : candidates.Nodup) :
    full candidates max ((Selector.seeded stream).select candidates max).1 := by
  have hpicked := Random.withoutReplacement Random.Stream.below_bounded ⟨candidates, max⟩ stream
  unfold full
  split
  · next hfits => exact .of_eq (hpicked.all hfits)
  · next hmany =>
      have hlength := hpicked.length
      rw [Nat.min_eq_left (Nat.le_of_not_le hmany)] at hlength
      exact ⟨hpicked.subset, hpicked.nodup hcandidates, hlength⟩

end Contract

namespace Database

variable {db db' : Database} {r : String} {author : User}

structure MayReview (db : Database) (author : User) (r : String) : Prop where
  not_author : r ≠ author.id
  teammate : ∃ u, db.user? r = some u ∧ u.teamName = author.teamName ∧ u.isActive = true

theorem mem_candidates_author :
    r ∈ candidates author.id [] (db.roster author.teamName) ↔ db.MayReview author r := by
  rw [mem_candidates_team]
  constructor
  · rintro ⟨hauthor, -, hteammate⟩
    exact ⟨hauthor, hteammate⟩
  · rintro ⟨hauthor, hteammate⟩
    exact ⟨hauthor, List.not_mem_nil, hteammate⟩

theorem candidates_nodup {authorId team : String} {exclude : List String} :
    (candidates authorId exclude (db.roster team)).Nodup := by
  have hids : ((db.roster team).map User.id).Nodup :=
    roster_ascending.imp fun h => ne_of_lt h
  exact hids.sublist (List.filter_sublist.map _)

structure Added (p : PullRequest) (db db' : Database) : Prop where
  stored : db'.pullRequest? p.id = some p
  others : ∀ id, id ≠ p.id → db'.pullRequest? id = db.pullRequest? id
  users : db'.users = db.users
  teams : db'.teams = db.teams

theorem added_addPullRequest {p : PullRequest} (hdb : db.Consistent)
    (habsent : db.pullRequests.contains p.id = false) (hnodup : p.reviewers.Nodup) :
    Added p db (db.addPullRequest p) where
  stored := by
    have hrow : (db.addPullRequest p).pullRequests.get? p.id = some p.row := by
      rw [addPullRequest, Table.get?_insert]
      exact if_pos rfl
    rw [pullRequest?, hrow, reviewersOf_addPullRequest hdb habsent hnodup]
    rfl
  others id hid := by
    have hrow : (db.addPullRequest p).pullRequests.get? id = db.pullRequests.get? id := by
      rw [addPullRequest, Table.get?_insert]
      exact if_neg hid.symm
    rw [pullRequest?, hrow, reviewersOf_addPullRequest_of_ne hid]
    rfl
  users := rfl
  teams := rfl

end Database

namespace Service

variable {clock : Int64} {s : Store} {selector : Selector} {contract : Contract}
  {id name authorId : String} {author : User}

section Create

variable (hid : Text.isBlank id = false) (hname : Text.isBlank name = false)
  (hauthor : Text.isBlank authorId = false) (hopen : s.isOpen = true)

include hid hname hauthor hopen

theorem outcome_createPullRequest_of_stored (hp : s.database.hasPullRequest id = true) :
    (createPullRequest id name authorId).outcome clock s selector =
      (.error (.pullRequestExists id), s) := by
  have hfound := Store.perform_look hopen (c := .hasPullRequest id) rfl
  simp [createPullRequest, require, hid, hname, hauthor, outcome_look_bind hfound, hp]

variable (hp : s.database.hasPullRequest id = false)

include hp

theorem outcome_createPullRequest_of_unknown (hu : s.database.user? authorId = none) :
    (createPullRequest id name authorId).outcome clock s selector =
      (.error (.unknownUser authorId), s) := by
  have hfound := Store.perform_look hopen (c := .hasPullRequest id) rfl
  have hlooked := Store.perform_look hopen (c := .user authorId) rfl
  simp [createPullRequest, require, hid, hname, hauthor, outcome_look_bind hfound, hp,
    outcome_look_bind hlooked, hu]

variable (hu : s.database.user? authorId = some author)

include hu

theorem outcome_createPullRequest_of_known :
    (createPullRequest id name authorId).outcome clock s selector =
      (do
        let reviewers ← choice (candidates author.id [] (s.database.roster author.teamName))
          reviewerCap
        let p : PullRequest := ⟨id, name, author.id, .opened, reviewers, ← now, none⟩
        ask (.createPullRequest p)
        log (.pullRequestCreated p.id p.reviewers)
        return p).outcome clock s selector := by
  have hfound := Store.perform_look hopen (c := .hasPullRequest id) rfl
  have hlooked := Store.perform_look hopen (c := .user authorId) rfl
  have hroster := Store.perform_look hopen (c := .roster author.teamName) rfl
  simp [createPullRequest, require, hid, hname, hauthor, outcome_look_bind hfound, hp,
    outcome_look_bind hlooked, hu, outcome_look_bind hroster]

theorem keeps_createPullRequest_iff :
    (createPullRequest id name authorId).Keeps contract clock s selector ↔
      contract (candidates author.id [] (s.database.roster author.teamName)) reviewerCap
        (selector.select (candidates author.id [] (s.database.roster author.teamName))
          reviewerCap).1 := by
  have hfound := Store.perform_look hopen (c := .hasPullRequest id) rfl
  have hlooked := Store.perform_look hopen (c := .user authorId) rfl
  have hroster := Store.perform_look hopen (c := .roster author.teamName) rfl
  simp only [createPullRequest, require, hid, hname, hauthor, Bool.false_eq_true, ↓reduceIte,
    keeps_ofExcept_bind, keeps_look_bind hfound, hp, keeps_look_bind hlooked, hu,
    keeps_orFail_bind, keeps_look_bind hroster, keeps_choice_bind, and_iff_left_iff_imp]
  intro _
  refine .readClock (.call ?_)
  generalize (s.perform _).result = answer
  cases answer with
  | error e => exact .done
  | ok answer => exact .note .done

end Create

end Service

/-- What creating a pull request answers and leaves, by the state that it finds. -/
inductive Opening (id name authorId : String) (clock : Int64) (db : Database) :
    Except Error PullRequest → Database → Prop
  | taken (hp : db.hasPullRequest id = true) :
      Opening id name authorId clock db (.error (.pullRequestExists id)) db
  | unknown (hp : db.hasPullRequest id = false) (hu : db.user? authorId = none) :
      Opening id name authorId clock db (.error (.unknownUser authorId)) db
  | opened {author : User} {members reviewers : List String} {db' : Database}
      (hp : db.hasPullRequest id = false) (hu : db.user? authorId = some author)
      (hmembers : ∀ r, r ∈ members ↔ db.MayReview author r) (hnodup : members.Nodup)
      (hreviewers : reviewers ⊆ members) (hdistinct : reviewers.Nodup)
      (hlength : reviewers.length = min 2 members.length)
      (hadded : Added ⟨id, name, authorId, .opened, reviewers, clock, none⟩ db db') :
      Opening id name authorId clock db
        (.ok ⟨id, name, authorId, .opened, reviewers, clock, none⟩) db'

namespace Trace

variable {contract : Contract} {t : Trace contract} {n : Nat} {clock : Int64}
  {selector : Selector} {id name authorId : String} {author : User}

theorem perform_createPullRequest {p : PullRequest} (hcalm : (t.store n).Calm)
    (hp : (t.database n).hasPullRequest p.id = false)
    (hu : (t.database n).user? p.authorId = some author) (hnodup : p.reviewers.Nodup)
    (hreviewers : p.reviewers ⊆
      candidates author.id [] ((t.database n).roster author.teamName)) :
    ((t.store n).perform (.createPullRequest p)).result = .ok () ∧
      ((t.store n).perform (.createPullRequest p)).store.database =
        (t.database n).addPullRequest p := by
  -- Candidates come from the roster of this very state, so that their rows may refer to them.
  have husers : ∀ r ∈ p.reviewers, (t.database n).users.contains r = true := by
    intro r hr
    obtain ⟨-, u, hu, -⟩ := mem_candidates_author.1 (hreviewers hr)
    exact contains_of_user? hu
  have hcreate : (t.database n).createPullRequest (t.store n).rejects p =
      .ok ((t.database n).addPullRequest p) := by
    rw [createPullRequest_of_permitted hcalm.permits (t.layout n).consistent
      (contains_of_user? hu) hnodup husers, hp]
    rfl
  exact Store.perform_of_effect hcalm.isOpen (map_eq_ok.2 ⟨_, hcreate, rfl⟩)

section Undisturbed

variable (hid : Text.isBlank id = false) (hname : Text.isBlank name = false)
  (hauthor : Text.isBlank authorId = false) (hcalm : (t.store n).Calm)
  (hkeeps : (Service.createPullRequest id name authorId).Keeps .full clock (t.store n) selector)

include hid hname hauthor hcalm hkeeps

theorem opening_of_known (hp : (t.database n).hasPullRequest id = false)
    (hu : (t.database n).user? authorId = some author) :
    Opening id name authorId clock (t.database n)
      ((Service.createPullRequest id name authorId).outcome clock (t.store n) selector).1
      ((Service.createPullRequest id name authorId).outcome clock (t.store n)
        selector).2.database := by
  have hchosen :=
    (Service.keeps_createPullRequest_iff hid hname hauthor hcalm.isOpen hp hu).1 hkeeps
  obtain ⟨hmembers, hdistinct, hlength⟩ := Contract.distinct_of_full candidates_nodup hchosen
  have hsame : author.id = authorId := id_of_user? hu
  rw [Service.outcome_createPullRequest_of_known hid hname hauthor hcalm.isOpen hp hu,
    Service.outcome_choice_bind, Service.outcome_now_bind]
  generalize selector.select (candidates author.id []
    ((t.store n).database.roster author.teamName)) reviewerCap = choice
    at hmembers hdistinct hlength ⊢
  obtain ⟨hresult, hdb⟩ := perform_createPullRequest (t := t) (n := n)
    (p := ⟨id, name, author.id, .opened, choice.1, clock, none⟩) hcalm hp (by rwa [hsame])
    hdistinct hmembers
  simp only [Service.outcome_ask_bind (c := .createPullRequest _), hresult,
    Service.outcome_log_bind, Service.outcome_pure, hdb, hsame]
  exact .opened hp hu (fun r => mem_candidates_author) candidates_nodup hmembers hdistinct hlength
    (added_addPullRequest (t.layout n).consistent hp hdistinct)

theorem opening_of_outcome :
    Opening id name authorId clock (t.database n)
      ((Service.createPullRequest id name authorId).outcome clock (t.store n) selector).1
      ((Service.createPullRequest id name authorId).outcome clock (t.store n)
        selector).2.database := by
  cases hp : (t.database n).hasPullRequest id with
  | true =>
      rw [Service.outcome_createPullRequest_of_stored hid hname hauthor hcalm.isOpen hp]
      exact .taken hp
  | false =>
      cases hu : (t.database n).user? authorId with
      | none =>
          rw [Service.outcome_createPullRequest_of_unknown hid hname hauthor hcalm.isOpen hp hu]
          exact .unknown hp hu
      | some author => exact opening_of_known hid hname hauthor hcalm hkeeps hp hu

end Undisturbed

/-- How the creation of a pull request is decided that nobody disturbs, with a selector that
chooses as many as there are up to the number that is asked for, in every state that clients can
bring about.  The store takes any of the candidates, so that it never stands against it. -/
theorem creation_undisturbed (t : Trace contract) (n : Nat) (clock : Int64) (selector : Selector)
    (id name authorId : String) (hid : Text.isBlank id = false)
    (hname : Text.isBlank name = false) (hauthor : Text.isBlank authorId = false)
    (hcalm : (t.store n).Calm)
    (hkeeps : (Service.createPullRequest id name authorId).Keeps .full clock (t.store n)
      selector) :
    let reply := ((Service.createPullRequest id name authorId).run clock (t.store n) selector).1
    Opening id name authorId clock (t.database n) reply.result reply.store.database ∧
      ∀ (author : User) (p : PullRequest), (t.database n).hasPullRequest p.id = false →
        (t.database n).user? p.authorId = some author → p.reviewers.Nodup →
        p.reviewers ⊆ candidates author.id [] ((t.database n).roster author.teamName) →
          ((t.store n).perform (.createPullRequest p)).result = .ok () := by
  refine ⟨opening_of_outcome hid hname hauthor hcalm hkeeps, ?_⟩
  intro author p hp hu hnodup hreviewers
  exact (perform_createPullRequest hcalm hp hu hnodup hreviewers).1

theorem creation_undisturbed_crossing :
    Text.isBlank "q" = false ∧ Text.isBlank "New" = false ∧ Text.isBlank "b" = false ∧
      (crossing.store 14).Calm ∧
      (Service.createPullRequest "q" "New" "b").Keeps .full 7 (crossing.store 14) (.ofSeed 42) ∧
      ∃ db', Opening "q" "New" "b" 7 (crossing.database 14)
        (.ok ⟨"q", "New", "b", .opened, ["a", "d"], 7, none⟩) db' := by
  have hid : Text.isBlank "q" = false := by decide
  have hname : Text.isBlank "New" = false := by decide
  have hauthor : Text.isBlank "b" = false := by decide
  have hcalm : (crossing.store 14).Calm := calm_ofList (by decide) 14
  have habsent : (crossing.database 14).hasPullRequest "q" = false := by decide +kernel
  have hu : (crossing.database 14).user? "b" = some ⟨"b", "Bob", "web", true⟩ := by decide +kernel
  have hkeeps : (Service.createPullRequest "q" "New" "b").Keeps .full 7 (crossing.store 14)
      (.ofSeed 42) := by
    rw [Service.keeps_createPullRequest_iff hid hname hauthor hcalm.isOpen habsent hu]
    exact Contract.full_seeded candidates_nodup
  have hresult : ((Service.createPullRequest "q" "New" "b").run 7 (crossing.store 14)
      (.ofSeed 42)).1.result = .ok ⟨"q", "New", "b", .opened, ["a", "d"], 7, none⟩ := by
    decide +kernel
  have hopening :=
    (crossing.creation_undisturbed 14 7 (.ofSeed 42) "q" "New" "b" hid hname hauthor hcalm hkeeps).1
  rw [hresult] at hopening
  exact ⟨hid, hname, hauthor, hcalm, hkeeps, _, hopening⟩

end Trace

end ReviewRota
