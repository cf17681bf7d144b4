import Mathlib
import ReviewRota.Proofs.Alone
import ReviewRota.Proofs.Calls
import ReviewRota.Proofs.OffDuty
import ReviewRota.Proofs.Reassignment

/-!
# New teams and the rosters of all teams

Whoever a new team lists leaves the team that they were in, so that one call changes many rosters.
A user refers to one team, which is stored; hence nobody is on two rosters or on none, and nobody
is waiting for a team that does not exist yet.
-/

namespace ReviewRota

open Database

/-! ## Rosters after a team was added -/

namespace Database

variable {db : Database} {name other : String} {members l l' : List User} {now : Int64} {u : User}

theorem eq_of_ascending (hl : (l.map User.id).Pairwise (· < ·))
    (hl' : (l'.map User.id).Pairwise (· < ·)) (h : ∀ u, u ∈ l ↔ u ∈ l') : l = l' := by
  rw [List.pairwise_map] at hl hl'
  have hperm : l.Perm l' := (List.perm_ext_iff_of_nodup (hl.imp fun hlt heq => ?_)
    (hl'.imp fun hlt heq => ?_)).2 h
  · refine hperm.eq_of_pairwise (fun u v _ _ huv hvu => ?_) hl hl'
    exact absurd huv (not_lt_of_gt hvu)
  · exact absurd (congrArg User.id heq) (ne_of_lt hlt)
  · exact absurd (congrArg User.id heq) (ne_of_lt hlt)

section AddTeam

variable (hnodup : (members.map User.id).Nodup)

include hnodup

theorem mem_roster_addTeam (hdb : db.Consistent) (habsent : db.hasTeam name = false) :
    u ∈ (db.addTeam name members now).roster name ↔
      u ∈ members.map fun m => { m with teamName := name } := by
  rw [mem_roster, List.mem_map]
  constructor
  · rintro ⟨hu, hteam⟩
    by_cases hmem : u.id ∈ members.map User.id
    · obtain ⟨m, hm, hid⟩ := List.mem_map.1 hmem
      rw [← hid, user?_addTeam_of_mem hnodup hm] at hu
      exact ⟨m, hm, Option.some.inj hu⟩
    · rw [user?_addTeam_of_not_mem hmem] at hu
      obtain ⟨r, hr, rfl, -⟩ := user?_eq_some_iff.1 hu
      have hstored := hdb.team_of_user r hr
      rw [hteam] at hstored
      exact absurd (habsent.symm.trans hstored) Bool.false_ne_true
  · rintro ⟨m, hm, rfl⟩
    have hu : (db.addTeam name members now).user? m.id = some { m with teamName := name } :=
      user?_addTeam_of_mem hnodup hm
    exact ⟨hu, rfl⟩

theorem roster_addTeam_of_ne (hne : other ≠ name) :
    (db.addTeam name members now).roster other =
      (db.roster other).filter fun u => u.id ∉ members.map User.id := by
  refine eq_of_ascending roster_ascending
    (roster_ascending.sublist (List.filter_sublist.map User.id)) fun u => ?_
  rw [List.mem_filter, mem_roster, mem_roster, decide_eq_true_eq]
  by_cases hmem : u.id ∈ members.map User.id
  · obtain ⟨m, hm, hid⟩ := List.mem_map.1 hmem
    constructor
    · rintro ⟨hu, hteam⟩
      rw [← hid, user?_addTeam_of_mem hnodup hm] at hu
      exact absurd (hteam.symm.trans (congrArg User.teamName (Option.some.inj hu)).symm) hne
    · rintro ⟨-, hout⟩
      exact absurd hmem hout
  · rw [user?_addTeam_of_not_mem hmem]
    exact (and_iff_left hmem).symm

end AddTeam

def lookUp (db : Database) (name : String) : Except Error Team :=
  if Text.isBlank name then .error (.blankField "team_name")
  else if db.hasTeam name then .ok (Team.ofUsers name (db.roster name))
  else .error (.unknownTeam name)

theorem mem_of_lookUp {team : Team} {m : Member} (h : db.lookUp name = .ok team)
    (hm : m ∈ team.members) : ∃ u, db.user? m.userId = some u ∧ u.teamName = name := by
  unfold lookUp at h
  split at h
  · cases h
  · split at h
    · cases h
      obtain ⟨u, hu, rfl⟩ := List.mem_map.1 hm
      exact ⟨u, mem_roster.1 hu⟩
    · cases h

section Joining

variable {joining : List Member}

theorem map_id_joining : (joining.map (·.joining name)).map User.id = joining.map Member.userId :=
  List.map_map

theorem map_asMember_joining : (joining.map (·.joining name)).map User.asMember = joining := by
  rw [List.map_map]
  exact List.map_id joining

variable (hdistinct : (joining.map Member.userId).Nodup)

include hdistinct

theorem roster_addTeam_perm (now : Int64) (hdb : db.Consistent)
    (habsent : db.hasTeam name = false) :
    ((db.addTeam name (joining.map (·.joining name)) now).roster name).Perm
      (joining.map (·.joining name)) := by
  have hnodup : ((joining.map (·.joining name)).map User.id).Nodup := by rwa [map_id_joining]
  have hjoined : (joining.map (·.joining name)).map (fun u => { u with teamName := name }) =
      joining.map (·.joining name) := List.map_map
  have hascending : ((db.addTeam name (joining.map (·.joining name)) now).roster name).Pairwise
      fun u v => u.id < v.id := List.pairwise_map.1 roster_ascending
  refine (List.perm_ext_iff_of_nodup (hascending.imp ?_) hnodup.of_map).2 fun u => ?_
  · rintro u v hlt rfl
    exact lt_irrefl _ hlt
  · rw [mem_roster_addTeam hnodup hdb habsent, hjoined]

theorem lookUp_addTeam (hdb : db.Consistent) (hname : Text.isBlank name = false)
    (habsent : db.hasTeam name = false) :
    ∃ listed, (db.addTeam name (joining.map (·.joining name)) now).lookUp name =
        .ok ⟨name, listed⟩ ∧
      listed.Perm joining ∧ listed.Pairwise fun m m' => m.userId < m'.userId := by
  have hstored : (db.addTeam name (joining.map (·.joining name)) now).hasTeam name = true :=
    Table.contains_insert.2 (.inl rfl)
  have hperm := (roster_addTeam_perm hdistinct now hdb habsent).map User.asMember
  rw [map_asMember_joining] at hperm
  refine ⟨_, ?_, hperm, List.pairwise_map.2 (List.pairwise_map.1 roster_ascending)⟩
  rw [lookUp, hname, hstored]
  rfl

theorem lookUp_addTeam_of_ne (hne : other ≠ name) :
    (db.addTeam name (joining.map (·.joining name)) now).lookUp other =
      (db.lookUp other).map fun team =>
        { team with
          members := team.members.filter fun m => m.userId ∉ joining.map Member.userId } := by
  have hnodup : ((joining.map (·.joining name)).map User.id).Nodup := by rwa [map_id_joining]
  have hstored : (db.addTeam name (joining.map (·.joining name)) now).hasTeam other =
      db.hasTeam other := by
    rw [Bool.eq_iff_iff, hasTeam, addTeam, Table.contains_insert]
    exact or_iff_right hne.symm
  have hmembers : ((db.roster other).filter fun u => u.id ∉ joining.map Member.userId).map
        User.asMember =
      ((db.roster other).map User.asMember).filter fun m => m.userId ∉ joining.map Member.userId :=
    by
    rw [List.filter_map]
    rfl
  rw [lookUp, lookUp, hstored, roster_addTeam_of_ne hnodup hne, map_id_joining, Team.ofUsers,
    hmembers]
  cases Text.isBlank other <;> cases db.hasTeam other <;> rfl

end Joining

end Database

/-! ## Input that does not pass the checks -/

namespace Service

structure Sound (members : List Member) : Prop where
  filled : ∀ m ∈ members, Text.isBlank m.userId = false
  distinct : (members.map Member.userId).Nodup

/-- What is wrong with the first member who does not go with those before. -/
inductive FirstOffence (members : List Member) : Error → Prop
  | blank {earlier later : List Member} {m : Member} (split : members = earlier ++ m :: later)
      (sound : Sound earlier) (blank : Text.isBlank m.userId = true) :
      FirstOffence members (.blankField "user_id")
  | repeated {earlier later : List Member} {m : Member} (split : members = earlier ++ m :: later)
      (sound : Sound earlier) (again : m.userId ∈ earlier.map Member.userId) :
      FirstOffence members (.duplicateMember m.userId)

inductive Offence (name : String) (members : List Member) : Error → Prop
  | unnamed (blank : Text.isBlank name = true) : Offence name members (.blankField "team_name")
  | member {e : Error} (named : Text.isBlank name = false) (first : FirstOffence members e) :
      Offence name members e

variable {name : String} {members earlier later : List Member} {m : Member} {seen : List String}
  {e : Error}

theorem sound_nil : Sound [] := ⟨nofun, .nil⟩

theorem sound_append_singleton (h : Sound members) (hm : Text.isBlank m.userId = false)
    (hfresh : m.userId ∉ members.map Member.userId) : Sound (members ++ [m]) where
  filled m' hm' := by
    rcases List.mem_append.1 hm' with hm' | hm'
    · exact h.filled m' hm'
    · rwa [List.mem_singleton.1 hm']
  distinct := by
    rw [List.map_append, List.map_singleton, List.nodup_append_comm, List.singleton_append]
    exact List.nodup_cons.2 ⟨hfresh, h.distinct⟩

theorem checkMembers_append :
    checkMembers seen (earlier ++ later) = (checkMembers seen earlier >>= fun _ =>
      checkMembers ((earlier.map Member.userId).reverse ++ seen) later) := by
  induction earlier generalizing seen with
  | nil => rfl
  | cons m rest ih =>
      simp only [List.cons_append, checkMembers, List.map_cons, List.reverse_cons,
        List.append_assoc, List.nil_append]
      cases require "user_id" m.userId with
      | error e => rfl
      | ok _ =>
          by_cases hseen : m.userId ∈ seen
          · simp only [List.contains_eq_mem, hseen, decide_true, if_true]
            rfl
          · simp only [List.contains_eq_mem, hseen, decide_false, Bool.false_eq_true, if_false]
            exact ih

theorem checkMembers_of_sound (h : Sound members) : checkMembers [] members = .ok () :=
  checkMembers_eq_ok.2 ⟨fun m hm => ⟨h.filled m hm, nofun⟩, h.distinct⟩

theorem checkMembers_of_firstOffence (h : FirstOffence members e) :
    checkMembers [] members = .error e := by
  cases h with
  | blank split sound blank =>
      rw [split, checkMembers_append, checkMembers_of_sound sound, checkMembers, require,
        if_pos blank]
      rfl
  | @repeated earlier later m split sound again =>
      obtain ⟨m', hm', hid⟩ := List.mem_map.1 again
      have hfilled : ¬ Text.isBlank m.userId = true := by simp [← hid, sound.filled m' hm']
      have hseen : ((earlier.map Member.userId).reverse ++ []).contains m.userId = true := by
        simpa using ⟨m', hm', hid⟩
      rw [split, checkMembers_append, checkMembers_of_sound sound, checkMembers, require,
        if_neg hfilled, hseen]
      rfl

theorem exists_firstOffence (h : ¬ Sound members) : ∃ e, FirstOffence members e := by
  obtain ⟨earlier, m, later, hsplit, hsound, hfails⟩ := exists_first_failing sound_nil h
  cases hblank : Text.isBlank m.userId with
  | true => exact ⟨_, .blank hsplit hsound hblank⟩
  | false =>
      have hagain : m.userId ∈ earlier.map Member.userId := by
        by_contra hfresh
        exact hfails (sound_append_singleton hsound hblank hfresh)
      exact ⟨_, .repeated hsplit hsound hagain⟩

theorem exists_offence_iff :
    (∃ e, Offence name members e) ↔ Text.isBlank name = true ∨ ¬ Sound members := by
  constructor
  · rintro ⟨e, blank | ⟨named, first⟩⟩
    · exact .inl blank
    · refine .inr fun hsound => ?_
      have hfailed := checkMembers_of_firstOffence first
      rw [checkMembers_of_sound hsound] at hfailed
      cases hfailed
  · intro h
    cases hblank : Text.isBlank name with
    | true => exact ⟨_, .unnamed hblank⟩
    | false =>
        obtain ⟨e, he⟩ := exists_firstOffence (h.resolve_left (by simp [hblank]))
        exact ⟨e, .member hblank he⟩

theorem not_sound_iff : ¬ Sound members ↔
    (∃ m ∈ members, Text.isBlank m.userId = true) ∨ ¬ (members.map Member.userId).Nodup := by
  rw [← not_iff_not, not_not, not_or, not_not]
  constructor
  · rintro ⟨hfilled, hdistinct⟩
    refine ⟨?_, hdistinct⟩
    rintro ⟨m, hm, hblank⟩
    exact absurd hblank (by simp [hfilled m hm])
  · rintro ⟨hfilled, hdistinct⟩
    exact ⟨fun m hm => eq_false_of_ne_true fun hblank => hfilled ⟨m, hm, hblank⟩, hdistinct⟩

theorem code_of_offence (h : Offence name members e) : e.code = .invalidInput := by
  rcases h with _ | ⟨-, _ | _⟩ <;> rfl

variable {clock : Int64} {s : Store} {selector : Selector}

theorem outcome_createTeam_of_offence (h : Offence name members e) :
    (createTeam name members).outcome clock s selector = (.error e, s) := by
  cases h with
  | unnamed blank => simp [createTeam, require, blank]
  | member named first =>
      simp [createTeam, require, named, checkMembers_of_firstOffence first]

theorem outcome_createTeam_of_absent (hname : Text.isBlank name = false) (hsound : Sound members)
    (hcalm : s.Calm) (habsent : s.database.hasTeam name = false) :
    (createTeam name members).outcome clock s selector =
      (.ok ⟨name, members⟩,
        { s with database := s.database.addTeam name (members.map (·.joining name)) clock }) := by
  have hfound := Store.perform_look hcalm.isOpen (c := .hasTeam name) rfl
  have hcreate : s.database.createTeam s.rejects name (members.map (·.joining name)) clock =
      .ok (s.database.addTeam name (members.map (·.joining name)) clock) := by
    rw [createTeam_of_permitted hcalm.permits, habsent]
    rfl
  obtain ⟨hresult, hdb⟩ := Store.perform_of_effect hcalm.isOpen
    (c := .createTeam name (members.map (·.joining name)) clock) (map_eq_ok.2 ⟨_, hcreate, rfl⟩)
  simp only [createTeam, require, hname, checkMembers_of_sound hsound, outcome_ofExcept_bind,
    outcome_look_bind hfound, habsent, Bool.false_eq_true, ↓reduceIte, outcome_now_bind,
    Team.ofUsers, map_asMember_joining]
  rw [outcome_ask_bind, hresult, Store.store_perform, hdb]
  rfl

theorem result_team (name : String) (hopen : s.isOpen = true) :
    ((team name).run clock s selector).1.result = s.database.lookUp name := by
  have hfound := Store.perform_look hopen (c := .hasTeam name) rfl
  have hroster := Store.perform_look hopen (c := .roster name) rfl
  change ((team name).outcome clock s selector).1 = _
  unfold lookUp
  cases hname : Text.isBlank name <;> cases hteam : s.database.hasTeam name <;>
    simp [team, team?, require, hname, bind_bind, pure_bind, orFail, outcome_look_bind hfound,
      hteam, outcome_look_bind hroster]

end Service

def StoreCall.Named : StoreCall → Prop
  | .createTeam name _ _ => Text.isBlank name = false
  | _ => True

theorem Action.named_service (a : Action) : a.service.Heeds StoreCall.Named := by
  cases a with
  | createTeam name members =>
      cases hblank : Text.isBlank name with
      | true =>
          have hrefused : (createTeam name members).service =
              .done (.error (.blankField "team_name")) := by
            rw [Action.service, Service.createTeam, Service.require, if_pos hblank]
            rfl
          rw [hrefused]
          trivial
      | false =>
          exact heeds_createTeam.mono fun c hc => by cases hc <;> first | exact hblank | trivial
  | setActive | createPullRequest | merge | reassign | deactivateTeam =>
      exact (heeds_service _).mono fun c hc => by cases hc <;> trivial

namespace Database

def Named (db : Database) : Prop :=
  ∀ r ∈ db.teams.rows, Text.isBlank r.name = false

theorem Named.transition {db db' : Database} {c : StoreCall} (hdb : db.Named)
    (htransition : Transition db c db') (hc : c.Named) : db'.Named := by
  cases htransition with
  | createTeam _ =>
      intro r hr
      rcases Table.mem_insert.1 hr with rfl | ⟨hold, -⟩
      · exact hc
      · exact hdb r hold
  | setActive _ | createPullRequest _ _ _ _ | setMerged => exact hdb
  | replaceReviewer _ =>
      rw [Named, teams_swapReviewer]
      exact hdb
  | deactivateTeam _ =>
      rw [Named, teams_standDown]
      exact hdb

end Database

theorem Trace.named {contract : Contract} (t : Trace contract) (n : Nat) :
    (t.database n).Named := by
  refine t.kept (P := Database.Named) (k := 0) (fun _ h => by cases h)
    (fun n i m hmove ih htransition => ?_) (Nat.zero_le n)
  exact ih.transition htransition
    (t.call_of_move? (fun a => (Action.named_service a).outline) hmove)

/-! ## The outcome in every state -/

/-- What looking up teams and users answers after a team was created, by what it answered before. -/
structure Enrolled (name : String) (members : List Member) (s s' : Store) : Prop where
  team : ∀ clock selector, ∃ listed,
    ((Service.team name).run clock s' selector).1.result = .ok ⟨name, listed⟩ ∧
      listed.Perm members ∧ listed.Pairwise fun m m' => m.userId < m'.userId
  others : ∀ other clock selector, other ≠ name →
    ((Service.team other).run clock s' selector).1.result =
      ((Service.team other).run clock s selector).1.result.map fun team =>
        { team with members := team.members.filter fun m => m.userId ∉ members.map Member.userId }
  users : ∀ id, id ∉ members.map Member.userId →
    s'.database.users.get? id = s.database.users.get? id
  pullRequests : s'.database.pullRequests = s.database.pullRequests
  reviewers : s'.database.reviewers = s.database.reviewers

theorem enrolled_addTeam {name : String} {members : List Member} {now : Int64} {s s' : Store}
    (hdb : s.database.Consistent) (hopen : s.isOpen = true) (hname : Text.isBlank name = false)
    (habsent : s.database.hasTeam name = false) (hdistinct : (members.map Member.userId).Nodup)
    (hopen' : s'.isOpen = true)
    (hadded : s'.database = s.database.addTeam name (members.map (·.joining name)) now) :
    Enrolled name members s s' where
  team clock selector := by
    rw [Service.result_team name hopen', hadded]
    exact lookUp_addTeam hdistinct hdb hname habsent
  others other clock selector hne := by
    rw [Service.result_team other hopen', Service.result_team other hopen, hadded]
    exact lookUp_addTeam_of_ne hdistinct hne
  users id hid := by
    rw [hadded]
    refine Table.get?_insertAll_of_not_mem ?_
    rwa [List.map_map, List.map_map]
  pullRequests := by rw [hadded, addTeam]
  reviewers := by rw [hadded, addTeam]

namespace Trace

variable {contract : Contract}

theorem roster_of_user (t : Trace contract) {n : Nat} {clock : Int64} {selector : Selector}
    (hopen : (t.store n).isOpen = true) {userId : String} {u : User}
    (hu : (t.database n).user? userId = some u) :
    (∃ team, ((Service.team u.teamName).run clock (t.store n) selector).1.result = .ok team ∧
      u.asMember ∈ team.members) ∧
    ∀ other team m, ((Service.team other).run clock (t.store n) selector).1.result = .ok team →
      m ∈ team.members → m.userId = userId → other = u.teamName := by
  have hstored : (t.database n).hasTeam u.teamName = true := by
    obtain ⟨r, hr, rfl, -⟩ := user?_eq_some_iff.1 hu
    exact (t.layout n).consistent.team_of_user r hr
  obtain ⟨r, hr, hname⟩ := Table.contains_iff.1 hstored
  have hfilled : Text.isBlank u.teamName = false := hname ▸ t.named n r hr
  constructor
  · refine ⟨Team.ofUsers u.teamName ((t.database n).roster u.teamName), ?_, ?_⟩
    · rw [Service.result_team u.teamName hopen, lookUp]
      change (if Text.isBlank u.teamName then _ else
        if (t.database n).hasTeam u.teamName then _ else _) = _
      rw [hfilled, hstored]
      rfl
    · have hid : u.id = userId := by
        obtain ⟨r, -, rfl, hid⟩ := user?_eq_some_iff.1 hu
        exact hid
      exact List.mem_map_of_mem (mem_roster.2 ⟨hid ▸ hu, rfl⟩)
  · rintro other team m hteam hm rfl
    rw [Service.result_team other hopen] at hteam
    obtain ⟨v, hv, rfl⟩ := mem_of_lookUp hteam hm
    rw [Option.some.inj (hu.symm.trans hv)]

/-- Creating a team while nobody comes in between. -/
theorem enrollment (t : Trace contract) (n : Nat) (clock : Int64) (selector : Selector)
    (name : String) (members : List Member) :
    let reply := ((Service.createTeam name members).run clock (t.store n) selector).1
    ((t.store n).Calm → Text.isBlank name = false → (t.database n).hasTeam name = false →
      Service.Sound members →
        reply.result = .ok ⟨name, members⟩ ∧ Enrolled name members (t.store n) reply.store) ∧
    ((t.store n).isOpen = true → ∀ userId u, (t.database n).user? userId = some u →
      (∃ team, ((Service.team u.teamName).run clock (t.store n) selector).1.result = .ok team ∧
        u.asMember ∈ team.members) ∧
      ∀ other team m, ((Service.team other).run clock (t.store n) selector).1.result = .ok team →
        m ∈ team.members → m.userId = userId → other = u.teamName) ∧
    (∀ e, Service.Offence name members e →
      reply.result = .error e ∧ e.code = .invalidInput ∧ reply.store = t.store n) ∧
    ((∃ e, Service.Offence name members e) ↔
      Text.isBlank name = true ∨ (∃ m ∈ members, Text.isBlank m.userId = true) ∨
        ¬ (members.map Member.userId).Nodup) := by
  intro reply
  have hreply : (Service.createTeam name members).outcome clock (t.store n) selector =
      (reply.result, reply.store) := rfl
  refine ⟨fun hcalm hname habsent hsound => ?_, fun hopen userId u hu => t.roster_of_user hopen hu,
    fun e he => ?_, ?_⟩
  · rw [Service.outcome_createTeam_of_absent hname hsound hcalm habsent, Prod.mk.injEq] at hreply
    obtain ⟨hresult, hstore⟩ := hreply
    rw [← hresult, ← hstore]
    exact ⟨rfl, enrolled_addTeam (t.layout n).consistent hcalm.isOpen hname habsent hsound.distinct
      hcalm.isOpen rfl⟩
  · rw [Service.outcome_createTeam_of_offence he, Prod.mk.injEq] at hreply
    exact ⟨hreply.1.symm, Service.code_of_offence he, hreply.2.symm⟩
  · rw [Service.exists_offence_iff, Service.not_sound_iff]

theorem enrollment_moving :
    (crossing.store 14).Calm ∧ Text.isBlank "ops" = false ∧
      (crossing.database 14).hasTeam "ops" = false ∧
      Service.Sound [⟨"f", "Fay", true⟩, ⟨"b", "Rob", false⟩] ∧
      ∃ s', (((Service.createTeam "ops" [⟨"f", "Fay", true⟩, ⟨"b", "Rob", false⟩]).run 20
          (crossing.store 14) .first).1.result =
            .ok ⟨"ops", [⟨"f", "Fay", true⟩, ⟨"b", "Rob", false⟩]⟩ ∧
        Enrolled "ops" [⟨"f", "Fay", true⟩, ⟨"b", "Rob", false⟩] (crossing.store 14) s') := by
  have hcalm : (crossing.store 14).Calm := calm_ofList (by decide) 14
  have hname : Text.isBlank "ops" = false := by decide
  have habsent : (crossing.database 14).hasTeam "ops" = false := by cbv
  have hsound : Service.Sound [⟨"f", "Fay", true⟩, ⟨"b", "Rob", false⟩] := ⟨by decide, by decide⟩
  have hcreated := (crossing.enrollment 14 20 .first "ops"
    [⟨"f", "Fay", true⟩, ⟨"b", "Rob", false⟩]).1 hcalm hname habsent hsound
  exact ⟨hcalm, hname, habsent, hsound, _, hcreated⟩

end Trace

end ReviewRota
