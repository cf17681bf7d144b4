import Mathlib
import ReviewRota.Proofs.Opening

/-!
# Storing and loading a pull request

A pull request is stored as one row and a row for each reviewer, and the rows are put together
again when it is loaded.  Whatever record can be stored comes back as it was.  When a reviewer
further down the list is refused, the rows before are given up as well.
-/

namespace ReviewRota

open Database

namespace Database

variable {rejects : Rejects} {db db' : Database} {id r : String} {earlier later : List String}
  {p : PullRequest} {e : Error}

theorem user?_eq_none_iff {userId : String} :
    db.user? userId = none ↔ db.users.contains userId = false := by
  rw [user?, Option.map_eq_none_iff, Table.get?_eq_none_iff]

structure Fit (db : Database) (reviewers : List String) : Prop where
  distinct : reviewers.Nodup
  known : ∀ r ∈ reviewers, ∃ u, db.user? r = some u

theorem fit_append_singleton (h : db.Fit earlier) (hfresh : r ∉ earlier) {u : User}
    (hu : db.user? r = some u) : db.Fit (earlier ++ [r]) where
  distinct := by
    rw [List.nodup_append_comm, List.singleton_append]
    exact List.nodup_cons.2 ⟨hfresh, h.distinct⟩
  known r' hr' := by
    rcases List.mem_append.1 hr' with hr' | hr'
    · exact h.known r' hr'
    · rw [List.mem_singleton.1 hr']
      exact ⟨u, hu⟩

theorem Fit.congr {l : List String} (h : db.Fit l) (hdb : db'.users = db.users) : db'.Fit l where
  distinct := h.distinct
  known := by
    unfold user?
    rw [hdb]
    exact h.known

/-- The first reviewer who is listed again or is nobody, and what is reported then. -/
inductive Misfit (db : Database) (id : String) (l : List String) : Error → Prop
  | repeated {earlier later : List String} {r : String} (split : l = earlier ++ r :: later)
      (fit : db.Fit earlier) (again : r ∈ earlier) :
      Misfit db id l (.storage .reviewerTwice (some (.insertReviewer r id)))
  | unknown {earlier later : List String} {r : String} (split : l = earlier ++ r :: later)
      (fit : db.Fit earlier) (unknown : db.user? r = none) :
      Misfit db id l (.storage .foreignKey (some (.insertReviewer r id)))

theorem Misfit.congr {l : List String} (h : Misfit db id l e) (hdb : db'.users = db.users) :
    Misfit db' id l e := by
  cases h with
  | repeated hsplit hfit hagain => exact .repeated hsplit (hfit.congr hdb) hagain
  | unknown hsplit hfit hr => exact .unknown hsplit (hfit.congr hdb) (by rwa [user?, hdb])

theorem exists_misfit (id : String) {l : List String} (h : ¬ db.Fit l) :
    ∃ e, Misfit db id l e := by
  obtain ⟨earlier, r, later, hsplit, hfit, hfails⟩ := exists_first_failing ⟨.nil, nofun⟩ h
  by_cases hagain : r ∈ earlier
  · exact ⟨_, .repeated hsplit hfit hagain⟩
  · cases hr : db.user? r with
    | none => exact ⟨_, .unknown hsplit hfit hr⟩
    | some u => exact absurd (fit_append_singleton hfit hagain hr) hfails

theorem insertReviewers_append_of_error
    (hearlier : insertReviewers rejects id earlier db = .ok db')
    (hr : insertReviewer rejects ⟨⟨id, r⟩, earlier.length⟩ db' = .error e) :
    insertReviewers rejects id (earlier ++ r :: later) db = .error e := by
  unfold insertReviewers at hearlier ⊢
  rw [List.zipIdx_append, List.foldlM_append, hearlier, List.zipIdx_cons]
  simp only [List.foldlM_cons, Nat.zero_add, bind, Except.bind, hr]

theorem contains_insertAll_listed (hnone : ∀ r, db.reviewers.contains ⟨id, r⟩ = false)
    (hdistinct : earlier.Nodup) :
    (db.reviewers.insertAll (listed id earlier)).contains ⟨id, r⟩ = true ↔ r ∈ earlier := by
  have hinjective : Function.Injective (Slot.mk id) := fun _ _ h => (Slot.mk.inj h).2
  have hslots : ((listed id earlier).map ReviewerRow.slot).Nodup := by
    rw [map_slot_listed]
    exact hdistinct.map hinjective
  have hmem : (⟨id, r⟩ : Slot) ∈ (listed id earlier).map ReviewerRow.slot ↔ r ∈ earlier := by
    rw [map_slot_listed]
    exact List.mem_map_of_injective hinjective
  rw [Table.contains_eq_isSome_get?]
  constructor
  · intro hsome
    by_contra hr
    have habsent := Table.get?_eq_none_iff.2 (hnone r)
    rw [Table.get?_insertAll_of_not_mem (hmem.not.2 hr), habsent] at hsome
    cases hsome
  · intro hr
    obtain ⟨row, hrow, hslot⟩ := List.mem_map.1 (hmem.2 hr)
    rw [← hslot, Table.get?_insertAll_of_mem hslots hrow]
    rfl

section Permitted

variable (hrejects : ∀ c, rejects c = false)

include hrejects

theorem insertReviewer_of_contained {row : ReviewerRow}
    (h : db.reviewers.contains row.slot = true) :
    insertReviewer rejects row db = .error (.storage .reviewerTwice
      (some (.insertReviewer row.slot.reviewer row.slot.pullRequest))) := by
  simp [insertReviewer, permit, hrejects, h, bind, Except.bind, throw, throwThe,
    MonadExceptOf.throw]

theorem insertReviewer_of_unknown {row : ReviewerRow}
    (h : db.reviewers.contains row.slot = false)
    (hu : db.users.contains row.slot.reviewer = false) :
    insertReviewer rejects row db = .error (.storage .foreignKey
      (some (.insertReviewer row.slot.reviewer row.slot.pullRequest))) := by
  simp [insertReviewer, permit, hrejects, h, hu, bind, Except.bind, throw, throwThe,
    MonadExceptOf.throw]

theorem insertReviewers_of_fit (hnone : ∀ r, db.reviewers.contains ⟨id, r⟩ = false)
    (hpull : db.pullRequests.contains id = true) (hfit : db.Fit earlier) :
    insertReviewers rejects id earlier db =
      .ok { db with reviewers := db.reviewers.insertAll (listed id earlier) } := by
  refine insertReviewers_eq_ok.2 ⟨hfit.distinct, fun row hrow => ?_, rfl⟩
  obtain ⟨u, hu⟩ := hfit.known _ (mem_of_mem_listed hrow)
  have hid := pullRequest_of_mem_listed hrow
  refine ⟨hrejects _, ?_, hid ▸ hpull, contains_of_user? hu⟩
  have hfresh := hnone row.slot.reviewer
  rwa [← hid] at hfresh

theorem insertReviewers_of_misfit {l : List String}
    (hnone : ∀ r, db.reviewers.contains ⟨id, r⟩ = false)
    (hpull : db.pullRequests.contains id = true) (h : Misfit db id l e) :
    insertReviewers rejects id l db = .error e := by
  cases h with
  | @repeated earlier later r hsplit hfit hagain =>
      rw [hsplit]
      exact insertReviewers_append_of_error (insertReviewers_of_fit hrejects hnone hpull hfit)
        (insertReviewer_of_contained hrejects
          ((contains_insertAll_listed hnone hfit.distinct).2 hagain))
  | @unknown earlier later r hsplit hfit hr =>
      have hfresh : r ∉ earlier := by
        intro hmem
        obtain ⟨u, hu⟩ := hfit.known r hmem
        rw [hr] at hu
        cases hu
      rw [← contains_insertAll_listed hnone hfit.distinct, Bool.not_eq_true] at hfresh
      rw [hsplit]
      exact insertReviewers_append_of_error (insertReviewers_of_fit hrejects hnone hpull hfit)
        (insertReviewer_of_unknown hrejects hfresh (user?_eq_none_iff.1 hr))

end Permitted

/-! ## What can be stored -/

structure Admits (db : Database) (p : PullRequest) : Prop where
  absent : db.hasPullRequest p.id = false
  author : ∃ u, db.user? p.authorId = some u
  reviewers : db.Fit p.reviewers

inductive Refused (db : Database) (p : PullRequest) : Error → Prop
  | taken (stored : db.hasPullRequest p.id = true) : Refused db p (.pullRequestExists p.id)
  | authorless (absent : db.hasPullRequest p.id = false) (unknown : db.user? p.authorId = none) :
      Refused db p (.storage .foreignKey (some .insertPullRequest))
  | repeated {author : User} {earlier later : List String} {r : String}
      (absent : db.hasPullRequest p.id = false) (author : db.user? p.authorId = some author)
      (split : p.reviewers = earlier ++ r :: later) (fit : db.Fit earlier) (again : r ∈ earlier) :
      Refused db p (.storage .reviewerTwice (some (.insertReviewer r p.id)))
  | unknown {author : User} {earlier later : List String} {r : String}
      (absent : db.hasPullRequest p.id = false) (author : db.user? p.authorId = some author)
      (split : p.reviewers = earlier ++ r :: later) (fit : db.Fit earlier)
      (unknown : db.user? r = none) :
      Refused db p (.storage .foreignKey (some (.insertReviewer r p.id)))

theorem exists_refused (h : ¬ db.Admits p) : ∃ e, Refused db p e := by
  cases habsent : db.hasPullRequest p.id with
  | true => exact ⟨_, .taken habsent⟩
  | false =>
      cases hauthor : db.user? p.authorId with
      | none => exact ⟨_, .authorless habsent hauthor⟩
      | some author =>
          obtain ⟨e, he⟩ := exists_misfit p.id fun hfit => h ⟨habsent, ⟨_, hauthor⟩, hfit⟩
          cases he with
          | repeated hsplit hfit hagain =>
              exact ⟨_, .repeated habsent hauthor hsplit hfit hagain⟩
          | unknown hsplit hfit hr => exact ⟨_, .unknown habsent hauthor hsplit hfit hr⟩

theorem code_of_refused (h : Refused db p e) :
    e.code = if db.hasPullRequest p.id = true then .prExists else .storeFailure := by
  cases h with
  | taken hp => rw [if_pos hp]; rfl
  | authorless hp | repeated hp | unknown hp => rw [hp]; rfl

section Permitted

variable (hrejects : ∀ c, rejects c = false)

include hrejects

theorem createPullRequest_of_admits (hdb : db.Consistent) (h : db.Admits p) :
    createPullRequest rejects p db = .ok (db.addPullRequest p) := by
  obtain ⟨u, hu⟩ := h.author
  have husers : ∀ r ∈ p.reviewers, db.users.contains r = true := by
    intro r hr
    obtain ⟨u, hu⟩ := h.reviewers.known r hr
    exact contains_of_user? hu
  rw [createPullRequest_of_permitted hrejects hdb (contains_of_user? hu) h.reviewers.distinct
    husers, h.absent]
  rfl

theorem createPullRequest_of_known (habsent : db.hasPullRequest p.id = false) {author : User}
    (hauthor : db.user? p.authorId = some author) :
    createPullRequest rejects p db = insertReviewers rejects p.id p.reviewers
      { db with pullRequests := db.pullRequests.insert p.row } := by
  rw [createPullRequest, insertPullRequest_eq_ok.2
    ⟨hrejects _, habsent, contains_of_user? hauthor, rfl⟩]
  rfl

theorem createPullRequest_of_refused (hdb : db.Consistent) (h : Refused db p e) :
    createPullRequest rejects p db = .error e := by
  have hnone : db.hasPullRequest p.id = false → ∀ r, db.reviewers.contains ⟨p.id, r⟩ = false :=
    fun habsent _ => hdb.not_contains_reviewer habsent
  have hpull : (db.pullRequests.insert p.row).contains p.id = true :=
    Table.contains_insert.2 (.inl rfl)
  cases h with
  | taken hp =>
      rw [createPullRequest, insertPullRequest_of_stored hrejects hp]
      rfl
  | authorless habsent hauthor =>
      rw [createPullRequest, insertPullRequest_of_unknown hrejects habsent
        (user?_eq_none_iff.1 hauthor)]
      rfl
  | repeated habsent hauthor hsplit hfit hagain =>
      rw [createPullRequest_of_known hrejects habsent hauthor]
      exact insertReviewers_of_misfit hrejects (hnone habsent) hpull
        (.repeated hsplit (hfit.congr rfl) hagain)
  | unknown habsent hauthor hsplit hfit hr =>
      rw [createPullRequest_of_known hrejects habsent hauthor]
      exact insertReviewers_of_misfit hrejects (hnone habsent) hpull
        (.unknown hsplit (hfit.congr rfl) hr)

end Permitted

end Database

namespace Store

variable {s : Store} {p : PullRequest} {e : Error}

theorem perform_pullRequest (hopen : s.isOpen = true) {id : String} :
    (s.perform (.pullRequest id)).result = .ok (s.database.pullRequest? id) :=
  congrArg Reply.result (perform_look hopen (c := .pullRequest id) rfl)

theorem perform_of_admits (hcalm : s.Calm) (hdb : s.database.Consistent)
    (h : s.database.Admits p) : (s.perform (.createPullRequest p)).result = .ok () ∧
      (s.perform (.createPullRequest p)).store.database = s.database.addPullRequest p :=
  perform_of_effect (c := .createPullRequest p) hcalm.isOpen
    (map_eq_ok.2 ⟨_, createPullRequest_of_admits hcalm.permits hdb h, rfl⟩)

theorem perform_of_refused (hcalm : s.Calm) (hdb : s.database.Consistent)
    (h : Refused s.database p e) : (s.perform (.createPullRequest p)).result = .error e ∧
      (s.perform (.createPullRequest p)).store = s := by
  refine perform_of_error (c := .createPullRequest p) hcalm.isOpen ?_
  rw [StoreCall.effect, createPullRequest_of_refused hcalm.permits hdb h]
  rfl

/-- A pull request that is stored is loaded as it was.  What stands against it first is reported,
and then nothing is stored. -/
theorem storing (s : Store) (hcalm : s.Calm) (hdb : s.database.Consistent) (p : PullRequest) :
    let reply := s.perform (.createPullRequest p)
    (reply.result = .ok () ↔ s.database.Admits p) ∧
    (s.database.Admits p → Added p s.database reply.store.database ∧
      ∀ id, (reply.store.perform (.pullRequest id)).result =
        if id = p.id then .ok (some p) else (s.perform (.pullRequest id)).result) ∧
    (∀ e, reply.result = .error e ↔ Refused s.database p e) ∧
    ∀ e, Refused s.database p e → reply.store = s ∧
      e.code = if s.database.hasPullRequest p.id = true then .prExists else .storeFailure := by
  intro reply
  have hopen' : reply.store.isOpen = true := by
    rw [store_perform]
    exact hcalm.isOpen
  have hrefused : ∀ e, Refused s.database p e → reply.result = .error e ∧ reply.store = s :=
    fun e => perform_of_refused hcalm hdb
  have hadmitted : s.database.Admits p → reply.result = .ok () ∧
      Added p s.database reply.store.database := by
    intro h
    obtain ⟨hresult, hstored⟩ := perform_of_admits hcalm hdb h
    exact ⟨hresult, hstored ▸ added_addPullRequest hdb h.absent h.reviewers.distinct⟩
  refine ⟨⟨fun hresult => ?_, fun h => (hadmitted h).1⟩, fun h => ⟨(hadmitted h).2, fun id => ?_⟩,
    fun e => ⟨fun hresult => ?_, fun h => (hrefused e h).1⟩, fun e h => ⟨(hrefused e h).2,
      code_of_refused h⟩⟩
  · by_contra h
    obtain ⟨e, he⟩ := exists_refused h
    rw [(hrefused e he).1] at hresult
    cases hresult
  · rw [perform_pullRequest hopen', perform_pullRequest hcalm.isOpen]
    split
    · next hid => rw [hid, (hadmitted h).2.stored]
    · next hid => rw [(hadmitted h).2.others id hid]
  · by_cases h : s.database.Admits p
    · rw [(hadmitted h).1] at hresult
      cases hresult
    · obtain ⟨e', he'⟩ := exists_refused h
      rw [(hrefused e' he').1] at hresult
      cases hresult
      exact he'

theorem storing_crossing :
    (Trace.crossing.store 14).Calm ∧ (Trace.crossing.database 14).Consistent ∧
      Added ⟨"q", "Old", "b", .merged, ["e", "c"], -3, none⟩ (Trace.crossing.database 14)
        ((Trace.crossing.store 14).perform
          (.createPullRequest ⟨"q", "Old", "b", .merged, ["e", "c"], -3, none⟩)).store.database ∧
      Refused (Trace.crossing.database 14) ⟨"q", "Old", "b", .opened, ["e", "z"], 3, none⟩
        (.storage .foreignKey (some (.insertReviewer "z" "q"))) := by
  have hcalm : (Trace.crossing.store 14).Calm := Trace.calm_ofList (by decide) 14
  have hdb := (Trace.crossing.layout 14).consistent
  have hstored : ((Trace.crossing.store 14).perform
      (.createPullRequest ⟨"q", "Old", "b", .merged, ["e", "c"], -3, none⟩)).result = .ok () := by
    cbv
  have hrefused : ((Trace.crossing.store 14).perform
      (.createPullRequest ⟨"q", "Old", "b", .opened, ["e", "z"], 3, none⟩)).result =
        .error (.storage .foreignKey (some (.insertReviewer "z" "q"))) := by cbv
  obtain ⟨hadmits, hadded, -, -⟩ :=
    storing _ hcalm hdb ⟨"q", "Old", "b", .merged, ["e", "c"], -3, none⟩
  obtain ⟨-, -, herror, -⟩ := storing _ hcalm hdb ⟨"q", "Old", "b", .opened, ["e", "z"], 3, none⟩
  exact ⟨hcalm, hdb, (hadded (hadmits.1 hstored)).1, (herror _).1 hrefused⟩

end Store

end ReviewRota
