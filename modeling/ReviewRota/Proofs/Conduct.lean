import ReviewRota.Proofs.Change
import ReviewRota.Proofs.Outline

/-!
# How the services conduct themselves

Of each service: what stands behind its store calls, and how its answer comes about.  An error
leaves the database alone.  An answer is due to a single store call, beside which the service
changes nothing.
-/

namespace ReviewRota

/-- What stands behind a store call, given the earlier calls of the same service. -/
def StoreCall.Founded (contract : Contract) (h : List Move) : StoreCall → Prop
  | .createPullRequest p =>
      p.status = .opened ∧ p.mergedAt = none ∧
        ∃ author, (∃ m ∈ h, m.Answered (.user p.authorId) (some author)) ∧
          ∃ roster, (∃ m ∈ h, m.Answered (.roster author.teamName) roster) ∧
            contract (candidates p.authorId [] roster) reviewerCap p.reviewers
  | .replaceReviewer id old new =>
      ∃ p, (∃ m ∈ h, m.Answered (.pullRequest id) (some p)) ∧
        ∃ team roster, (∃ m ∈ h, m.Answered (.roster team) roster) ∧
          ∃ chosen, contract (candidates p.authorId (old :: p.reviewers) roster) 1 chosen ∧
            chosen.head? = some new
  | .writeReviewers .. => False
  | .hasTeam _ | .createTeam .. | .user _ | .roster _ | .setActive .. | .hasPullRequest _
  | .pullRequest _ | .setMerged .. | .reviewsOf _ | .deactivateTeam .. | .countByReviewer
  | .countByPullRequest | .usersAmong _ | .reviewersAmong _ => True

namespace Action

/-- The store call to which an answer is due. -/
def Settled : (a : Action) → a.Answer → Move → Prop
  | .createTeam name members, team, m =>
      let users := members.map (·.joining name)
      team = Team.ofUsers name users ∧ ∃ now, m.Answered (.createTeam name users now) ()
  | .setActive id isActive, user, m =>
      ∃ now, m.Answered (.setActive id isActive now) (some user)
  | .createPullRequest id name authorId, p, m =>
      p.id = id ∧ p.name = name ∧ p.authorId = authorId ∧ m.Answered (.createPullRequest p) ()
  | .merge id, p, m =>
      m.Answered (.pullRequest id) (some p) ∧ p.isMerged = true ∨
        ∃ now, m.Answered (.setMerged id now) (some p)
  | .reassign id old, r, m =>
      m.Answered (.replaceReviewer id old r.replacedBy) (some r.pullRequest)
  | .deactivateTeam name, summary, m =>
      ∃ now, m.Answered (.deactivateTeam name now) summary

def Closing (a : Action) (h : List Move) : Except Error a.Answer → Prop
  | .error _ => ∀ m ∈ h, m.Silent
  | .ok answer => ∃ m ∈ h, a.Settled answer m ∧ ∀ m' ∈ h, m' ≠ m → m'.Silent

def Conducted (contract : Contract) (a : Action) (h : List Move) (s : Service a.Answer) : Prop :=
  (∀ m ∈ h, m.Silent) → s.Outline contract (StoreCall.Founded contract) a.Closing h

end Action

namespace Action.Conducted

variable {contract : Contract} {a : Action} {h : List Move} {α : Type}

theorem ofExcept {r : Except Error α} {f : α → Service a.Answer}
    (hok : ∀ x, r = .ok x → a.Conducted contract h (f x)) :
    a.Conducted contract h (Service.ofExcept r >>= f) := fun hsilent =>
  Service.outline_ofExcept (fun _ _ => hsilent) fun x hx => hok x hx hsilent

theorem fail {e : Error} : a.Conducted contract h (Service.fail e) := id

theorem orFail {e : Error} {o : Option α} {f : α → Service a.Answer}
    (hsome : ∀ x, o = some x → a.Conducted contract h (f x)) :
    a.Conducted contract h (Service.orFail e o >>= f) := fun hsilent =>
  Service.outline_orFail (fun _ => hsilent) fun x hx => hsome x hx hsilent

theorem change {c : StoreCall} {f : c.Answer → Service a.Answer} (hfounded : c.Founded contract h)
    (hok : ∀ m answer, m.Answered c answer → (∀ m ∈ h, m.Silent) →
      (f answer).Outline contract (StoreCall.Founded contract) a.Closing (m :: h)) :
    a.Conducted contract h (Service.ask c >>= f) := by
  intro hsilent
  refine Service.outline_ask hfounded (fun m e hm => ?_) fun m answer hm => ?_
  · exact List.forall_mem_cons.2 ⟨hm.silent, hsilent⟩
  · exact hok m answer hm hsilent

theorem look {c : StoreCall} {f : c.Answer → Service a.Answer} (hlooks : c.looks = true)
    (hfounded : c.Founded contract h)
    (hok : ∀ m answer, m.Answered c answer → a.Conducted contract (m :: h) (f answer)) :
    a.Conducted contract h (Service.ask c >>= f) :=
  change hfounded fun m answer hm hsilent => by
    have hlook : m.Silent := Move.silent_of_looks (hm.1 ▸ hlooks)
    exact hok m answer hm (List.forall_mem_cons.2 ⟨hlook, hsilent⟩)

theorem choice {candidates : List String} {max : Nat} {f : List String → Service a.Answer}
    (hf : ∀ chosen, contract candidates max chosen → a.Conducted contract h (f chosen)) :
    a.Conducted contract h (Service.choice candidates max >>= f) := fun hsilent =>
  Service.outline_choice fun chosen hchosen => hf chosen hchosen hsilent

theorem now {f : Int64 → Service a.Answer} (hf : ∀ time, a.Conducted contract h (f time)) :
    a.Conducted contract h (Service.now >>= f) := fun hsilent =>
  Service.outline_now fun time => hf time hsilent

end Action.Conducted

namespace Action

variable {contract : Contract}

theorem closing_ok {a : Action} {answer : a.Answer} {h : List Move} {m : Move}
    (hsilent : ∀ m' ∈ h, m'.Silent) (hsettled : a.Settled answer m) :
    a.Closing (m :: h) (.ok answer) := by
  refine ⟨m, List.mem_cons_self, hsettled, fun m' hm' hne => ?_⟩
  rcases List.mem_cons.1 hm' with rfl | hm'
  · exact absurd rfl hne
  · exact hsilent m' hm'

theorem closing_error {a : Action} {e : Error} {h : List Move} {m : Move} {c : StoreCall}
    {answer : c.Answer} (hsilent : ∀ m' ∈ h, m'.Silent) (hm : m.Answered c answer)
    (hsame : ∀ rejects db db', (c.effect rejects db).1 = .ok (answer, db') → db' = db) :
    a.Closing (m :: h) (.error e) :=
  List.forall_mem_cons.2 ⟨hsame _ _ _ hm.effect, hsilent⟩

theorem conducted_createTeam {name : String} {members : List Member} :
    (createTeam name members).Conducted contract [] (.createTeam name members) := by
  refine .ofExcept fun _ _ => .ofExcept fun _ _ => .look rfl trivial fun _ found _ => ?_
  split
  · exact .fail
  refine .now fun time => .change trivial fun m _ hm hsilent => ?_
  exact Service.outline_log (closing_ok hsilent ⟨rfl, time, hm⟩)

theorem conducted_setActive {id : String} {isActive : Bool} :
    (setActive id isActive).Conducted contract [] (.setActive id isActive) := by
  refine .ofExcept fun _ _ => .now fun time => .change trivial fun m answer hm hsilent => ?_
  refine Service.outline_orFail (fun hnone => ?_) fun user huser => ?_
  · subst hnone
    refine closing_error hsilent hm fun rejects db db' hok => ?_
    rcases Database.setActive_ok hok with ⟨-, hsame, -⟩ | ⟨_, -, hsome, -⟩
    · exact hsame
    · cases hsome
  · subst huser
    exact Service.outline_log (closing_ok hsilent ⟨time, hm⟩)

theorem conducted_createPullRequest {id name authorId : String} :
    (createPullRequest id name authorId).Conducted contract []
      (.createPullRequest id name authorId) := by
  refine .ofExcept fun _ _ => .ofExcept fun _ _ => .ofExcept fun _ _ => ?_
  refine .look rfl trivial fun _ found _ => ?_
  split
  · exact .fail
  refine .look rfl trivial fun userMove _ huser => .orFail fun author hauthor => ?_
  subst hauthor
  obtain rfl : author.id = authorId := Database.id_of_user? huser.user?_eq
  refine .look rfl trivial fun rosterMove roster hroster => .choice fun reviewers hreviewers => ?_
  refine .now fun time => .change ?_ fun m _ hm hsilent => ?_
  · exact ⟨rfl, rfl, author, ⟨userMove, by simp, huser⟩, roster, ⟨rosterMove, by simp, hroster⟩,
      hreviewers⟩
  · exact Service.outline_log (closing_ok hsilent ⟨rfl, rfl, rfl, hm⟩)

theorem conducted_merge {id : String} : (merge id).Conducted contract [] (.merge id) := by
  refine .ofExcept fun _ _ => .look rfl trivial fun read _ hread => .orFail fun p hp => ?_
  subst hp
  split
  · next hmerged =>
      -- Merged before: what was read is the answer, and nothing is written.
      intro hsilent
      exact Service.outline_log ⟨read, by simp, .inl ⟨hread, hmerged⟩, fun m hm _ => hsilent m hm⟩
  refine .now fun time => .change trivial fun m answer hm hsilent => ?_
  refine Service.outline_orFail (fun hnone => ?_) fun merged hmerged => ?_
  · subst hnone
    refine closing_error hsilent hm fun rejects db db' hok => ?_
    rcases Database.setMerged_ok hok with ⟨-, hsame, -⟩ | ⟨_, hsome, -⟩
    · exact hsame
    · cases hsome
  · subst hmerged
    exact Service.outline_log (closing_ok hsilent (.inr ⟨time, hm⟩))

theorem conducted_reassign {id old : String} :
    (reassign id old).Conducted contract [] (.reassign id old) := by
  refine .ofExcept fun _ _ => .ofExcept fun _ _ => ?_
  refine .look rfl trivial fun read _ hread => .orFail fun p hp => .ofExcept fun _ _ => ?_
  subst hp
  split
  · exact .fail
  refine .look rfl trivial fun _ _ _ => .orFail fun oldReviewer _ => ?_
  refine .look rfl trivial fun rosterMove roster hroster => .choice fun chosen hchosen => ?_
  refine .orFail fun new hnew => .change ?_ fun m answer hm hsilent => ?_
  · exact ⟨p, ⟨read, by simp, hread⟩, _, roster, ⟨rosterMove, by simp, hroster⟩, chosen, hchosen,
      hnew⟩
  refine Service.outline_orFail (fun hnone => ?_) fun updated hupdated => ?_
  · subst hnone
    refine closing_error hsilent hm fun rejects db db' hok => ?_
    rcases Database.replaceReviewer_ok hok with ⟨-, hsame⟩ | ⟨_, hsome, -⟩
    · exact hsame
    · cases hsome
  · subst hupdated
    exact Service.outline_log (closing_ok hsilent hm)

theorem conducted_deactivateTeam {name : String} :
    (deactivateTeam name).Conducted contract [] (.deactivateTeam name) := by
  refine .ofExcept fun _ _ => .now fun time hsilent => ⟨trivial, fun k s => ?_⟩
  cases hresult : (s.perform (.deactivateTeam name time)).result with
  | error e =>
      refine List.forall_mem_cons.2 ⟨?_, hsilent⟩
      exact congrArg Store.database (Store.perform_eq_error hresult)
  | ok summary => exact closing_ok hsilent ⟨time, rfl, hresult⟩

theorem outline_service (a : Action) :
    a.service.Outline contract (StoreCall.Founded contract) a.Closing [] := by
  cases a with
  | createTeam => exact conducted_createTeam (by simp)
  | setActive => exact conducted_setActive (by simp)
  | createPullRequest => exact conducted_createPullRequest (by simp)
  | merge => exact conducted_merge (by simp)
  | reassign => exact conducted_reassign (by simp)
  | deactivateTeam => exact conducted_deactivateTeam (by simp)

end Action

namespace Trace

variable {contract : Contract} {t : Trace contract} {i n : Nat} {m : Move}

theorem founded_of_move? (h : t.move? i n = some m) : m.call.Founded contract (t.history i n) :=
  t.call_of_move? Action.outline_service h

section Done

variable {a : Action}

theorem closing_of_done {result : Except Error a.Answer}
    (h : t.client? i n = some ⟨a, .done result⟩) : a.Closing (t.history i n) result :=
  t.outline Action.outline_service h

theorem database_of_silent {result : Except Error a.Answer} {k : Nat}
    (h : t.client? i n = some ⟨a, .done result⟩) (hk : t.Acts i k)
    (hsilent : ∀ m ∈ t.history i n, m.time = k → m.Silent) :
    t.database (k + 1) = t.database k := by
  cases hmove : t.move? i k with
  | none => exact database_of_no_move hk hmove
  | some m =>
      have htime := time_of_move? hmove
      -- A client that is done makes no more calls.
      have hlt : k < n := by
        by_contra hle
        rw [move?_of_done (Nat.le_of_not_lt hle) h] at hmove
        cases hmove
      obtain ⟨hbefore, hafter⟩ := database_of_move? hmove
      rw [← hbefore, ← hafter]
      exact hsilent m (mem_history.2 ⟨htime ▸ hlt, htime ▸ hmove⟩) htime

theorem database_of_error {e : Error} (h : t.client? i n = some ⟨a, .done (.error e)⟩) {k : Nat}
    (hk : t.Acts i k) : t.database (k + 1) = t.database k :=
  database_of_silent h hk fun m hm _ => closing_of_done h m hm

/-- Beside the turn to which its answer is due, a client changes nothing. -/
theorem settled_of_ok {answer : a.Answer} (h : t.client? i n = some ⟨a, .done (.ok answer)⟩) :
    ∃ m, m.time < n ∧ t.move? i m.time = some m ∧ a.Settled answer m ∧
      ∀ k, t.Acts i k → k ≠ m.time → t.database (k + 1) = t.database k := by
  obtain ⟨m, hm, hsettled, hothers⟩ := closing_of_done h
  obtain ⟨hlt, hmove⟩ := mem_history.1 hm
  refine ⟨m, hlt, hmove, hsettled, fun k hk hne => ?_⟩
  refine database_of_silent h hk fun m' hm' htime => hothers m' hm' ?_
  rintro rfl
  exact hne htime.symm

end Done

end Trace

end ReviewRota
