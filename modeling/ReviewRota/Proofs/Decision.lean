import Mathlib
import ReviewRota.Proofs.Alone
import ReviewRota.Proofs.Merging
import ReviewRota.Proofs.Reassignment

/-!
# Replacing a reviewer undisturbed

Who may take a place is decided twice: among the candidates by what was read, and once more when
the place is given away.  When nobody comes in between the two decisions agree, and what is left of
the errors is decided by the state before.
-/

namespace ReviewRota

open Database

/-- Nobody but candidates is chosen, and somebody if there are any and anybody is asked for. -/
def Contract.willing : Contract := fun candidates max chosen =>
  chosen ⊆ candidates ∧ (candidates ≠ [] → 0 < max → chosen ≠ [])

theorem Contract.willing_take {candidates : List String} {max : Nat} :
    willing candidates max (candidates.take max) := by
  refine ⟨List.take_subset max candidates, fun hcandidates hmax hnone => ?_⟩
  rcases List.take_eq_nil_iff.1 hnone with hzero | hnil
  · omega
  · exact hcandidates hnil

theorem Service.keeps_first {α : Type} {service : Service α} {clock : Int64} {s : Store} :
    service.Keeps .willing clock s .first :=
  keeps_of_steady (fun _ _ => Contract.willing_take) fun _ _ => rfl

namespace Database

variable {db db' : Database} {id old r : String} {p : PullRequest}

structure MayReplace (db : Database) (p : PullRequest) (old : User) (r : String) : Prop where
  not_author : r ≠ p.authorId
  not_reviewer : r ∉ p.reviewers
  teammate : ∃ u, db.user? r = some u ∧ u.teamName = old.teamName ∧ u.isActive = true

theorem mem_candidates_team {authorId team : String} {exclude : List String} :
    r ∈ candidates authorId exclude (db.roster team) ↔
      r ≠ authorId ∧ r ∉ exclude ∧
        ∃ u, db.user? r = some u ∧ u.teamName = team ∧ u.isActive = true := by
  rw [mem_candidates]
  constructor
  · rintro ⟨hauthor, hexcluded, v, hv, rfl, hactive⟩
    obtain ⟨hstored, hteam⟩ := mem_roster.1 hv
    exact ⟨hauthor, hexcluded, v, hstored, hteam, hactive⟩
  · rintro ⟨hauthor, hexcluded, v, hv, hteam, hactive⟩
    obtain rfl := id_of_user? hv
    exact ⟨hauthor, hexcluded, v, mem_roster.2 ⟨hv, hteam⟩, rfl, hactive⟩

theorem mem_candidates_roster {u : User} (hold : old ∈ p.reviewers) :
    r ∈ candidates p.authorId (old :: p.reviewers) (db.roster u.teamName) ↔
      db.MayReplace p u r := by
  rw [mem_candidates_team]
  constructor
  · rintro ⟨hauthor, hexcluded, hteammate⟩
    exact ⟨hauthor, fun hmem => hexcluded (.tail _ hmem), hteammate⟩
  · rintro ⟨hauthor, hreviewer, hteammate⟩
    refine ⟨hauthor, ?_, hteammate⟩
    rintro (_ | ⟨_, hmem⟩)
    · exact hreviewer hold
    · exact hreviewer hmem

theorem canReplace_of_mayReplace {u : User} (hp : db.pullRequest? id = some p)
    (hopened : p.status = .opened) (hold : old ∈ p.reviewers) (hr : db.MayReplace p u r) :
    db.canReplace id old r = true := by
  obtain ⟨v, hv, -, hactive⟩ := hr.teammate
  have hfresh := hr.not_reviewer
  obtain ⟨row, hrow, rfl⟩ := pullRequest?_eq_some_iff_get?.1 hp
  refine canReplace_iff.2 ⟨mem_reviewersOf.1 hold, ⟨row, hrow, hopened⟩, ⟨v, hv, hactive⟩, ?_⟩
  rw [← Bool.not_eq_true, ← mem_reviewersOf]
  exact hfresh

theorem replaceReviewer_of_canReplace {rejects : Rejects} (hrejects : ∀ c, rejects c = false)
    (hcan : db.canReplace id old r = true) :
    db.replaceReviewer rejects id old r =
      .ok ((db.swapReviewer ⟨id, old⟩ r).pullRequest? id, db.swapReviewer ⟨id, old⟩ r) := by
  unfold replaceReviewer
  rw [if_pos hcan, permit_eq_ok (u := ()) |>.2 (hrejects _)]
  rfl

end Database

namespace Service

variable {clock : Int64} {s : Store} {selector : Selector} {id old : String} {p : PullRequest}
  {u : User}

section Reassign

variable (hid : Text.isBlank id = false) (hold : Text.isBlank old = false)
  (hopen : s.isOpen = true)

include hid hold hopen

theorem outcome_reassign_of_absent (hp : s.database.pullRequest? id = none) :
    (reassign id old).outcome clock s selector = (.error (.unknownPullRequest id), s) := by
  have hread := Store.perform_look hopen (c := .pullRequest id) rfl
  simp [reassign, require, hid, hold, outcome_look_bind hread, hp]

variable (hp : s.database.pullRequest? id = some p)

include hp

theorem outcome_reassign_of_merged (hmerged : p.status = .merged) :
    (reassign id old).outcome clock s selector = (.error (.pullRequestMerged id), s) := by
  have hread := Store.perform_look hopen (c := .pullRequest id) rfl
  simp [reassign, require, hid, hold, outcome_look_bind hread, hp, PullRequest.requireOpen,
    PullRequest.isMerged, hmerged, id_of_pullRequest? hp]

variable (hopened : p.status = .opened)

include hopened

theorem outcome_reassign_of_not_mem (hmem : old ∉ p.reviewers) :
    (reassign id old).outcome clock s selector = (.error (.notAssigned id old), s) := by
  have hread := Store.perform_look hopen (c := .pullRequest id) rfl
  simp [reassign, require, hid, hold, outcome_look_bind hread, hp, PullRequest.requireOpen,
    PullRequest.isMerged, hopened, PullRequest.hasReviewer, hmem]

variable (hmem : old ∈ p.reviewers) (hu : s.database.user? old = some u)

include hmem hu

theorem outcome_reassign_of_mem :
    (reassign id old).outcome clock s selector =
      (do
        let chosen ← choice (candidates p.authorId (old :: p.reviewers)
          (s.database.roster u.teamName)) 1
        let new ← orFail (.noCandidate id) chosen.head?
        let updated ← orFail (.unknownPullRequest id) (← ask (.replaceReviewer id old new))
        log (.reviewerReplaced id old new)
        return (⟨updated, new⟩ : Reassignment)).outcome clock s selector := by
  have hread := Store.perform_look hopen (c := .pullRequest id) rfl
  have hreviewer := Store.perform_look hopen (c := .user old) rfl
  have hroster := Store.perform_look hopen (c := .roster u.teamName) rfl
  simp [reassign, require, hid, hold, outcome_look_bind hread, hp, PullRequest.requireOpen,
    PullRequest.isMerged, hopened, PullRequest.hasReviewer, hmem, outcome_look_bind hreviewer, hu,
    outcome_look_bind hroster]

theorem keeps_choice_of_reassign {contract : Contract}
    (hkeeps : (reassign id old).Keeps contract clock s selector) :
    contract (candidates p.authorId (old :: p.reviewers) (s.database.roster u.teamName)) 1
      (selector.select (candidates p.authorId (old :: p.reviewers)
        (s.database.roster u.teamName)) 1).1 := by
  have hread := Store.perform_look hopen (c := .pullRequest id) rfl
  have hreviewer := Store.perform_look hopen (c := .user old) rfl
  have hroster := Store.perform_look hopen (c := .roster u.teamName) rfl
  simp only [reassign, require, hid, hold, Bool.false_eq_true, ↓reduceIte, keeps_ofExcept_bind,
    keeps_look_bind hread, hp, keeps_orFail_bind, PullRequest.requireOpen, PullRequest.isMerged,
    hopened, reduceCtorEq, decide_false, PullRequest.hasReviewer, List.contains_eq_mem, hmem,
    decide_true, Bool.not_true, keeps_look_bind hreviewer, hu, keeps_look_bind hroster,
    keeps_choice_bind] at hkeeps
  exact hkeeps.1

end Reassign

end Service

/-- What a reassignment answers and leaves, by the state that it finds. -/
inductive Decision (id old : String) (db : Database) :
    Except Error Reassignment → Database → Prop
  | absent (hp : db.pullRequest? id = none) :
      Decision id old db (.error (.unknownPullRequest id)) db
  | merged {p : PullRequest} (hp : db.pullRequest? id = some p) (hmerged : p.status = .merged) :
      Decision id old db (.error (.pullRequestMerged id)) db
  | unassigned {p : PullRequest} (hp : db.pullRequest? id = some p) (hopened : p.status = .opened)
      (hmem : old ∉ p.reviewers) :
      Decision id old db (.error (.notAssigned id old)) db
  | nobody {p : PullRequest} {u : User} (hp : db.pullRequest? id = some p)
      (hopened : p.status = .opened) (hmem : old ∈ p.reviewers) (hu : db.user? old = some u)
      (hnobody : ∀ r, ¬ db.MayReplace p u r) :
      Decision id old db (.error (.noCandidate id)) db
  | replaced {p : PullRequest} {u : User} {r : String} {k : Nat} {db' : Database}
      (hp : db.pullRequest? id = some p) (hopened : p.status = .opened)
      (hmem : p.reviewers[k]? = some old) (hu : db.user? old = some u)
      (hr : db.MayReplace p u r) (hreplaced : Replaced id old r db db')
      (hothers : ∀ other, other ≠ id → db'.pullRequest? other = db.pullRequest? other) :
      Decision id old db (.ok ⟨{ p with reviewers := p.reviewers.set k r }, r⟩) db'

namespace Trace

variable {contract : Contract} {t : Trace contract} {n : Nat} {clock : Int64}
  {selector : Selector} {id old : String} {p : PullRequest} {u : User}

theorem perform_replaceReviewer {r : String} (hcalm : (t.store n).Calm)
    (hp : (t.database n).pullRequest? id = some p) (hopened : p.status = .opened)
    (hmem : old ∈ p.reviewers) (hr : (t.database n).MayReplace p u r) :
    ∃ k, p.reviewers[k]? = some old ∧
      ((t.store n).perform (.replaceReviewer id old r)).result =
        .ok (some { p with reviewers := p.reviewers.set k r }) ∧
      Replaced id old r (t.database n)
        ((t.store n).perform (.replaceReviewer id old r)).store.database ∧
      ∀ other, other ≠ id →
        ((t.store n).perform (.replaceReviewer id old r)).store.database.pullRequest? other =
          (t.database n).pullRequest? other := by
  have hcan := canReplace_of_mayReplace hp hopened hmem hr
  have hauthor : ∀ author, (t.database n).authorOf? id = some author → r ≠ author := by
    intro author hauthor
    rw [authorOf?_of_pullRequest? hp] at hauthor
    cases hauthor
    exact hr.not_author
  have hreplaced := replaced_swapReviewer (t.layout n) hcan hauthor
  obtain ⟨p', hp', -, -, -, k, hk, hafter⟩ := hreplaced.pullRequest
  rw [hp] at hp'
  cases hp'
  obtain ⟨hresult, hdb⟩ := Store.perform_of_effect (c := .replaceReviewer id old r) hcalm.isOpen
    (replaceReviewer_of_canReplace hcalm.permits hcan)
  rw [hdb]
  refine ⟨k, hk, hresult.trans (congrArg Except.ok hafter), hreplaced, fun other hne => ?_⟩
  rw [pullRequest?, pullRequests_swapReviewer, reviewersOf_swapReviewer_of_ne hne]
  rfl

theorem exists_user_of_mem {r : String} (hp : (t.database n).pullRequest? id = some p)
    (hr : r ∈ p.reviewers) : ∃ u, (t.database n).user? r = some u := by
  obtain ⟨row, -, -, rfl⟩ := pullRequest?_eq_some_iff.1 hp
  exact exists_of_contains_user ((t.layout n).consistent.contains_reviewer hr)

section Undisturbed

variable (hid : Text.isBlank id = false) (hold : Text.isBlank old = false)
  (hcalm : (t.store n).Calm)
  (hkeeps : (Service.reassign id old).Keeps .willing clock (t.store n) selector)

include hid hold hcalm hkeeps

theorem decision_of_mem (hp : (t.database n).pullRequest? id = some p)
    (hopened : p.status = .opened) (hmem : old ∈ p.reviewers) :
    Decision id old (t.database n)
      ((Service.reassign id old).outcome clock (t.store n) selector).1
      ((Service.reassign id old).outcome clock (t.store n) selector).2.database := by
  obtain ⟨u, hu⟩ := exists_user_of_mem hp hmem
  obtain ⟨hmembers, hsomebody⟩ :=
    Service.keeps_choice_of_reassign hid hold hcalm.isOpen hp hopened hmem hu hkeeps
  rw [Service.outcome_reassign_of_mem hid hold hcalm.isOpen hp hopened hmem hu,
    Service.outcome_choice_bind, Service.outcome_orFail_bind]
  generalize selector.select (candidates p.authorId (old :: p.reviewers)
    ((t.store n).database.roster u.teamName)) 1 = choice at hmembers hsomebody ⊢
  cases hchosen : choice.1.head? with
  | none =>
      refine .nobody hp hopened hmem hu fun r hr => ?_
      exact hsomebody (List.ne_nil_of_mem ((mem_candidates_roster hmem).2 hr)) Nat.one_pos
        (List.head?_eq_none_iff.1 hchosen)
  | some r =>
      have hr := (mem_candidates_roster hmem).1 (hmembers (List.mem_of_mem_head? hchosen))
      obtain ⟨k, hk, hresult, hreplaced, hothers⟩ :=
        perform_replaceReviewer hcalm hp hopened hmem hr
      simp only [Service.outcome_ask_bind (c := .replaceReviewer id old r), hresult,
        Service.outcome_orFail_bind, Service.outcome_log_bind, Service.outcome_pure]
      exact .replaced hp hopened hk hu hr hreplaced hothers

theorem decision_of_outcome :
    Decision id old (t.database n)
      ((Service.reassign id old).outcome clock (t.store n) selector).1
      ((Service.reassign id old).outcome clock (t.store n) selector).2.database := by
  cases hp : (t.database n).pullRequest? id with
  | none =>
      rw [Service.outcome_reassign_of_absent hid hold hcalm.isOpen hp]
      exact .absent hp
  | some p =>
      cases hstatus : p.status with
      | merged =>
          rw [Service.outcome_reassign_of_merged hid hold hcalm.isOpen hp hstatus]
          exact .merged hp hstatus
      | opened =>
          by_cases hmem : old ∈ p.reviewers
          · exact decision_of_mem hid hold hcalm hkeeps hp hstatus hmem
          · rw [Service.outcome_reassign_of_not_mem hid hold hcalm.isOpen hp hstatus hmem]
            exact .unassigned hp hstatus hmem

end Undisturbed

/-- How a reassignment is decided that nobody disturbs, with a selector that chooses somebody if it
can, in every state that clients can bring about.  Whoever has a place there is a stored user, and
the store gives the place to whoever is a candidate for it. -/
theorem reassignment_undisturbed (t : Trace contract) (n : Nat) (clock : Int64)
    (selector : Selector) (id old : String) (hid : Text.isBlank id = false)
    (hold : Text.isBlank old = false) (hcalm : (t.store n).Calm)
    (hkeeps : (Service.reassign id old).Keeps .willing clock (t.store n) selector) :
    let reply := ((Service.reassign id old).run clock (t.store n) selector).1
    Decision id old (t.database n) reply.result reply.store.database ∧
      ∀ p, (t.database n).pullRequest? id = some p →
        (∀ r ∈ p.reviewers, ∃ u, (t.database n).user? r = some u) ∧
        ∀ (u : User) (r : String), p.status = .opened → old ∈ p.reviewers →
          r ∈ candidates p.authorId (old :: p.reviewers) ((t.database n).roster u.teamName) →
            ∃ k, p.reviewers[k]? = some old ∧
              ((t.store n).perform (.replaceReviewer id old r)).result =
                .ok (some { p with reviewers := p.reviewers.set k r }) := by
  refine ⟨decision_of_outcome hid hold hcalm hkeeps, fun p hp => ⟨fun r hr => ?_, ?_⟩⟩
  · exact exists_user_of_mem hp hr
  · intro u r hopened hmem hr
    obtain ⟨k, hk, hresult, -⟩ :=
      perform_replaceReviewer hcalm hp hopened hmem ((mem_candidates_roster hmem).1 hr)
    exact ⟨k, hk, hresult⟩

theorem reassignment_undisturbed_crossing :
    Text.isBlank "p" = false ∧ Text.isBlank "b" = false ∧ (crossing.store 14).Calm ∧
      (Service.reassign "p" "b").Keeps .willing 7 (crossing.store 14) .first ∧
      ∃ r db', r.replacedBy = "d" ∧ r.pullRequest.reviewers = ["d", "c"] ∧
        Decision "p" "b" (crossing.database 14) (.ok r) db' := by
  have hid : Text.isBlank "p" = false := by decide
  have hold : Text.isBlank "b" = false := by decide
  have hcalm : (crossing.store 14).Calm := calm_ofList (by decide) 14
  have hkeeps : (Service.reassign "p" "b").Keeps .willing 7 (crossing.store 14) .first :=
    Service.keeps_first
  have hresult : ((Service.reassign "p" "b").run 7 (crossing.store 14) .first).1.result =
      .ok ⟨⟨"p", "Fix", "a", .opened, ["d", "c"], 6, none⟩, "d"⟩ := by cbv
  have hdecision := (crossing.reassignment_undisturbed 14 7 .first "p" "b" hid hold hcalm hkeeps).1
  rw [hresult] at hdecision
  exact ⟨hid, hold, hcalm, hkeeps, _, _, rfl, rfl, hdecision⟩

end Trace

end ReviewRota
