import ReviewRota.Proofs.Folders
import ReviewRota.Proofs.Records
import ReviewRota.Proofs.Sessions

/-!
# Migrations are applied once and as a whole

An opening applies what is not recorded yet, each migration in a transaction of its statements and
its record.  However often a database is opened, and whatever fails on the way, a migration is
recorded once, and an opening that fails leaves at most the empty table of records behind.
-/

namespace ReviewRota

open Sql (Cell Statement)

namespace Catalog

open Migration (recordTable recordsOf)

variable {c c' d : Catalog} {m : Migration} {entries : List (Int × String)} {name : String}
  {refusals : Refusals} {count : ℕ}

def Committed (c : Catalog) (m : Migration) (c' : Catalog) : Prop :=
  ∃ d, (Sql.statements m.script).foldlM executeText c = .ok d ∧ d.record m = .ok c'

theorem foldlM_of_executeAll {statements : List String}
    (h : c.executeAll refusals count statements = .ok c') :
    statements.foldlM executeText c = .ok c' := by
  induction statements generalizing c count with
  | nil => exact h
  | cons sql rest ih =>
      rw [executeAll, bind_eq_ok] at h
      obtain ⟨d, hsql, hrest⟩ := h
      rw [List.foldlM_cons, (Refusals.attempt_eq_ok.1 hsql).2]
      exact ih hrest

theorem committed_of_applyMigration (h : c.applyMigration refusals count m = .ok c') :
    c.Committed m c' := by
  rw [applyMigration, bind_eq_ok] at h
  obtain ⟨_, -, h⟩ := h
  dsimp only at h
  rw [bind_eq_ok] at h
  obtain ⟨d, hstatements, h⟩ := h
  rw [bind_eq_ok] at h
  obtain ⟨c', hrecord, h⟩ := h
  cases (Refusals.attempt_eq_ok.1 h).2
  exact ⟨d, foldlM_of_executeAll hstatements, (Refusals.attempt_eq_ok.1 hrecord).2⟩

/-- A catalog that is brought up to date: each migration is recorded already, or committed. -/
inductive Upgrade : Catalog → List Migration → Catalog → Prop where
  | done (c : Catalog) : Upgrade c [] c
  | skip {c c' : Catalog} {m : Migration} {rest : List Migration}
      (hrecorded : c.isRecorded m = .ok true) (h : Upgrade c rest c') : Upgrade c (m :: rest) c'
  | commit {c d c' : Catalog} {m : Migration} {rest : List Migration}
      (hrecorded : c.isRecorded m = .ok false) (hcommitted : c.Committed m d)
      (h : Upgrade d rest c') : Upgrade c (m :: rest) c'

/-- Where a run stops, the migrations before are committed and nothing is left of the others. -/
theorem upgrade_applyAll (refusals : Refusals) (count : ℕ) (c : Catalog) (ms : List Migration) :
    ∃ seen rest, ms = seen ++ rest ∧ c.Upgrade seen (c.applyAll refusals count ms).catalog ∧
      ((c.applyAll refusals count ms).result = .ok () ↔ rest = []) := by
  induction ms generalizing c count with
  | nil => exact ⟨[], [], rfl, .done c, by simp [applyAll]⟩
  | cons m rest ih =>
      rw [applyAll]
      cases hrecorded : refusals.attempt count (c.isRecorded m) with
      | error fault => exact ⟨[], m :: rest, rfl, .done c, by simp⟩
      | ok recorded =>
          have hread := (Refusals.attempt_eq_ok.1 hrecorded).2
          cases recorded with
          | true =>
              obtain ⟨seen, left, rfl, hupgrade, hresult⟩ := ih (count + 1) c
              exact ⟨m :: seen, left, rfl, .skip hread hupgrade, hresult⟩
          | false =>
              dsimp only
              cases happly : c.applyMigration refusals (count + 1) m with
              | error fault => exact ⟨[], m :: rest, rfl, .done c, by simp⟩
              | ok d =>
                  obtain ⟨seen, left, rfl, hupgrade, hresult⟩ :=
                    ih (count + 4 + (Sql.statements m.script).length) d
                  exact ⟨m :: seen, left, rfl,
                    .commit hread (committed_of_applyMigration happly) hupgrade, hresult⟩

theorem applyAll_of_recorded {ms : List Migration} (h : ∀ m ∈ ms, c.isRecorded m = .ok true) :
    c.applyAll refusals count ms = ⟨refusals.outcome count ms.length, c, []⟩ := by
  induction ms generalizing count with
  | nil => rfl
  | cons m rest ih =>
      rw [applyAll, h m List.mem_cons_self, List.length_cons, Refusals.outcome_succ,
        Refusals.attempt]
      cases refusals count with
      | some fault => rfl
      | none => exact ih fun m' hm' => h m' (List.mem_cons_of_mem m hm')

/-! ## The table of records -/

def withRecords (c : Catalog) : Catalog :=
  { c with relations := c.relations ++ [recordsOf []] }

def Prepared (c c' : Catalog) : Prop :=
  c' = c ∨ c.relation? recordTable = none ∧ c' = c.withRecords

theorem executeText_createRecords : c.executeText Migration.createRecords =
    c.createTable recordTable Migration.recordColumns := by
  rw [executeText, Migration.ofText_createRecords, execute]

theorem prepared_of_createRecords (h : c.executeText Migration.createRecords = .ok c') :
    c.Prepared c' := by
  rw [executeText_createRecords, createTable, hasRelation] at h
  split_ifs at h with hpresent
  · cases h
    exact .inl rfl
  · cases h
    rw [Bool.or_eq_true, not_or, Bool.not_eq_true, Option.isSome_eq_false_iff,
      Option.isNone_iff_eq_none] at hpresent
    exact .inr ⟨hpresent.1, rfl⟩

theorem createRecords_of_records (h : c.Records entries) :
    c.executeText Migration.createRecords = .ok c := by
  rw [executeText_createRecords, createTable, if_pos]
  rw [hasRelation, h]
  rfl

theorem records_withRecords (h : c.relation? recordTable = none) : c.withRecords.Records [] := by
  have hname : sameName recordTable recordTable = true := sameName_iff.2 rfl
  rw [Records, relation?, withRecords, List.find?_append, ← relation?, h, Option.none_or]
  simp only [List.find?_singleton, recordsOf, hname, if_true]

section

variable {ms : List Migration}

theorem Committed.records (h : c.Committed m c') (hdefines : m.Defines)
    (hrecords : c.Records entries) : ∃ id, c'.Records (entries ++ [(id, m.name)]) := by
  obtain ⟨d, hstatements, hrecord⟩ := h
  exact records_of_record (relation?_foldlM hdefines hstatements hrecords) hrecord

theorem Upgrade.records (h : c.Upgrade ms c') (hdefines : ∀ m ∈ ms, m.Defines)
    (hrecords : c.Records entries) (hnodup : (entries.map Prod.snd).Nodup) :
    ∃ entries', c'.Records entries' ∧ (entries'.map Prod.snd).Nodup ∧
      entries.map Prod.snd ⊆ entries'.map Prod.snd ∧
      ms.map Migration.name ⊆ entries'.map Prod.snd ∧
      entries'.map Prod.snd ⊆ entries.map Prod.snd ++ ms.map Migration.name := by
  induction h generalizing entries with
  | done c =>
      exact ⟨entries, hrecords, hnodup, List.Subset.refl _, List.nil_subset _,
        List.subset_append_left _ _⟩
  | @skip c c' m rest hrecorded h ih =>
      have hname : m.name ∈ entries.map Prod.snd := by
        rw [isRecorded_of_records hrecords, Except.ok.injEq, decide_eq_true_eq] at hrecorded
        exact hrecorded
      obtain ⟨entries', hrecords', hnodup', hold, hnew, honly⟩ :=
        ih (fun m' hm' => hdefines m' (List.mem_cons_of_mem m hm')) hrecords hnodup
      refine ⟨entries', hrecords', hnodup', hold, List.cons_subset.2 ⟨hold hname, hnew⟩,
        fun name hmem => ?_⟩
      rcases List.mem_append.1 (honly hmem) with hbefore | hrest
      · exact List.mem_append_left _ hbefore
      · exact List.mem_append_right _ (List.mem_cons_of_mem _ hrest)
  | @commit c d c' m rest hrecorded hcommitted h ih =>
      have hname : m.name ∉ entries.map Prod.snd := by
        rw [isRecorded_of_records hrecords, Except.ok.injEq, decide_eq_false_iff_not] at hrecorded
        exact hrecorded
      obtain ⟨id, hadded⟩ := hcommitted.records (hdefines m List.mem_cons_self) hrecords
      have hnames : (entries ++ [(id, m.name)]).map Prod.snd =
          entries.map Prod.snd ++ [m.name] := by
        rw [List.map_append, List.map_singleton]
      have hnodup' : ((entries ++ [(id, m.name)]).map Prod.snd).Nodup := by
        rw [hnames]
        exact List.nodup_append_comm.1 (List.nodup_cons.2 ⟨hname, hnodup⟩)
      obtain ⟨entries', hrecords', hnodup', hold, hnew, honly⟩ :=
        ih (fun m' hm' => hdefines m' (List.mem_cons_of_mem m hm')) hadded hnodup'
      rw [hnames] at hold honly
      obtain ⟨hbefore, hcurrent⟩ := List.append_subset.1 hold
      refine ⟨entries', hrecords', hnodup', hbefore,
        List.cons_subset.2 ⟨hcurrent (List.mem_singleton_self _), hnew⟩, ?_⟩
      rwa [List.append_assoc] at honly

theorem Upgrade.eq_of_no_records (h : c.Upgrade ms c') (hnone : c.named? recordTable = none) :
    ms = [] ∧ c' = c := by
  have hread : ∀ m recorded, c.isRecorded m ≠ .ok recorded := by
    intro m recorded
    rw [isRecorded, Catalog.records, read, hnone]
    intro h
    cases h
  cases h with
  | done => exact ⟨rfl, rfl⟩
  | skip hrecorded => exact (hread _ _ hrecorded).elim
  | commit hrecorded => exact (hread _ _ hrecorded).elim

theorem upgrade_migrate (refusals : Refusals) (c : Catalog) (ms : List Migration) :
    ∃ d seen rest, c.Prepared d ∧ ms = seen ++ rest ∧
      d.Upgrade seen (c.migrate refusals ms).catalog ∧
      ((c.migrate refusals ms).result = .ok () → rest = []) ∧
      ((c.migrate refusals ms).result ≠ .ok () → seen = [] ∨ rest ≠ []) := by
  rw [migrate]
  cases hcreate : refusals.attempt 0 (c.executeText Migration.createRecords) with
  | error fault =>
      refine ⟨c, [], ms, .inl rfl, rfl, .done c, fun hok => ?_, fun _ => .inl rfl⟩
      cases hok
  | ok d =>
      obtain ⟨seen, rest, hms, hupgrade, hresult⟩ := upgrade_applyAll refusals 1 d ms
      exact ⟨d, seen, rest, prepared_of_createRecords (Refusals.attempt_eq_ok.1 hcreate).2, hms,
        hupgrade, hresult.1, fun hfailed => .inr fun hrest => hfailed (hresult.2 hrest)⟩

theorem migrate_of_recorded {refusals : Refusals} (hrecords : c.Records entries)
    (h : ∀ m ∈ ms, m.name ∈ entries.map Prod.snd) :
    c.migrate refusals ms = ⟨refusals.outcome 0 (ms.length + 1), c, []⟩ := by
  rw [migrate, createRecords_of_records hrecords, Refusals.outcome_succ, Refusals.attempt]
  cases refusals 0 with
  | some fault => rfl
  | none =>
      refine applyAll_of_recorded fun m hm => ?_
      rw [isRecorded_of_records hrecords, decide_eq_true (h m hm)]

/-- What has the name of the records is the table of records, in which migrations are recorded at
most once each. -/
def Kept (c : Catalog) (ms : List Migration) : Prop :=
  ∀ x, c.named? recordTable = some x → ∃ entries, x = .inl (recordsOf entries) ∧
    (entries.map Prod.snd).Nodup ∧ entries.map Prod.snd ⊆ ms.map Migration.name

theorem Kept.prepared (h : c.Kept ms) (hprepared : c.Prepared d) :
    d = c ∧ c.named? recordTable = none ∨
      ∃ entries, d.Records entries ∧ (entries.map Prod.snd).Nodup ∧
        entries.map Prod.snd ⊆ ms.map Migration.name ∧
        ∀ name, c.HasRecord name → name ∈ entries.map Prod.snd := by
  obtain rfl | ⟨hnone, rfl⟩ := hprepared
  · cases hnamed : d.named? recordTable with
    | none => exact .inl ⟨rfl, rfl⟩
    | some x =>
        obtain ⟨entries, rfl, hnodup, hknown⟩ := h x hnamed
        have hr : d.Records entries := by rw [Records, relation?_eq_named?, hnamed]; rfl
        exact .inr ⟨entries, hr, hnodup, hknown, fun name => (hasRecord_iff hr).1⟩
  · refine .inr ⟨[], records_withRecords hnone, List.nodup_nil, List.nil_subset _, ?_⟩
    rintro name ⟨r, hr, -⟩
    cases hnone.symm.trans hr

theorem kept_migrate (refusals : Refusals) (hdefines : ∀ m ∈ ms, m.Defines) (h : c.Kept ms) :
    (c.migrate refusals ms).catalog.Kept ms ∧
      ∀ name, c.HasRecord name → (c.migrate refusals ms).catalog.HasRecord name := by
  obtain ⟨d, seen, rest, hprepared, hms, hupgrade, -⟩ := upgrade_migrate refusals c ms
  have hseen : ∀ m ∈ seen, m ∈ ms := fun m hm => hms ▸ List.mem_append_left _ hm
  obtain ⟨rfl, hnone⟩ | ⟨entries, hrecords, hnodup, hknown, hold⟩ := h.prepared hprepared
  · obtain ⟨-, hsame⟩ := hupgrade.eq_of_no_records hnone
    rw [hsame]
    exact ⟨h, fun _ => id⟩
  · obtain ⟨entries', hrecords', hnodup', hbefore, -, honly⟩ :=
      hupgrade.records (fun m hm => hdefines m (hseen m hm)) hrecords hnodup
    refine ⟨fun x hx => ⟨entries', ?_, hnodup', fun name hmem => ?_⟩, fun name hname => ?_⟩
    · exact Option.some.inj (hx.symm.trans (named?_of_relation? hrecords'))
    · rcases List.mem_append.1 (honly hmem) with hmem | hmem
      · exact hknown hmem
      · obtain ⟨m, hm, rfl⟩ := List.mem_map.1 hmem
        exact List.mem_map_of_mem (hseen m hm)
    · exact (hasRecord_iff hrecords').2 (hbefore (hold name hname))

end

end Catalog

/-! ## Sequences of openings -/

namespace Migration

set_option maxRecDepth 10000 in
theorem startsWith_initialSchema :
    ∀ sql ∈ Sql.statements initialSchema.script, "CREATE ".toList <+: sql.toList := by
  -- on the characters the splitter can be run, on the text itself only with much more effort
  have hchars : ∃ cs, initialSchema.script = String.ofList cs ∧
      ∀ sql ∈ ((Sql.lines cs).foldl Sql.Splitter.feedLine .start).close.statements,
        sql.startsWith "CREATE " = true := ⟨_, rfl, by decide +kernel⟩
  obtain ⟨cs, hcs, hstarts⟩ := hchars
  intro sql hsql
  rw [hcs, Sql.statements, String.toList_ofList] at hsql
  exact String.startsWith_string_iff.1 (hstarts sql hsql)

theorem defines_of_mem_all : ∀ m ∈ all, m.Defines := by
  intro m hm
  cases List.mem_singleton.1 hm
  exact fun sql hsql => Sql.defines_ofText (startsWith_initialSchema sql hsql)

end Migration

/-- Openings of the database at a path, one after the other.  At first nothing has the name of the
records.  Each opening may be refused statements of its own, and in between anything may change but
what has that name. -/
structure Openings where
  path : String
  name : String
  mustExist : Bool
  located : Location.ofPath path = .ok (.file name mustExist)
  folder : ℕ → Folder
  refusals : ℕ → Refusals
  fresh : ((folder 0).stored name).named? Migration.recordTable = none
  kept : ∀ n, ((folder (n + 1)).stored name).named? Migration.recordTable =
    (((folder n).openDatabase (refusals n) path).folder.stored name).named? Migration.recordTable

namespace Openings

variable (o : Openings) (n : ℕ)

def call : Folder.Opened := (o.folder n).openDatabase (o.refusals n) o.path

def before : Catalog := (o.folder n).stored o.name

def after : Catalog := (o.call n).folder.stored o.name

def Reaches : Prop := (o.folder n).Reaches o.path (.file o.name o.mustExist)

def session : Session := .opened (o.refusals n) (o.before n) Migration.all

def Adds (name : String) : Prop := ¬ (o.before n).HasRecord name ∧ (o.after n).HasRecord name

variable {o} {n} {k : ℕ} {name : String}

theorem call_of_reaches (h : o.Reaches n) :
    (o.call n).result =
        ((o.before n).migrate (o.refusals n) Migration.all).result.mapError .storage ∧
      (o.call n).events = ((o.before n).migrate (o.refusals n) Migration.all).events ∧
      o.after n = ((o.before n).migrate (o.refusals n) Migration.all).catalog :=
  Folder.openDatabase_of_reaches o.located h

theorem call_of_not_reaches (h : ¬ o.Reaches n) :
    (∃ fault, (o.call n).result = .error fault) ∧ (o.call n).events = [] ∧
      o.after n = o.before n :=
  Folder.openDatabase_of_not_reaches o.located h

theorem call_eq_ok_iff : (o.call n).result = .ok () ↔
    o.Reaches n ∧ ((o.before n).migrate (o.refusals n) Migration.all).result = .ok () := by
  by_cases hreaches : o.Reaches n
  · rw [(call_of_reaches hreaches).1, mapError_eq_ok, and_iff_right hreaches]
  · obtain ⟨fault, hfault⟩ := (call_of_not_reaches hreaches).1
    rw [hfault]
    exact iff_of_false (fun h => by cases h) fun h => hreaches h.1

theorem session_of_reaches (h : o.Reaches n) :
    (o.call n).result = (o.session n).result.mapError .storage ∧
      o.after n = (o.session n).stored := by
  obtain ⟨hresult, -, hafter⟩ := call_of_reaches h
  obtain ⟨hstored, hend⟩ := Session.opened_eq_migrate (o.refusals n) (o.before n) Migration.all
  rw [session, hend, hstored]
  exact ⟨hresult, hafter⟩

theorem kept_after (h : (o.before n).Kept Migration.all) :
    (o.after n).Kept Migration.all ∧
      ∀ name, (o.before n).HasRecord name → (o.after n).HasRecord name := by
  by_cases hreaches : o.Reaches n
  · rw [(call_of_reaches hreaches).2.2]
    exact Catalog.kept_migrate (o.refusals n) Migration.defines_of_mem_all h
  · rw [(call_of_not_reaches hreaches).2.2]
    exact ⟨h, fun _ => id⟩

theorem kept_before (o : Openings) (n : ℕ) : (o.before n).Kept Migration.all := by
  induction n with
  | zero =>
      intro x hx
      cases o.fresh.symm.trans hx
  | succ n ih =>
      intro x hx
      exact (kept_after ih).1 x ((o.kept n).symm.trans hx)

theorem hasRecord_succ : (o.before (n + 1)).HasRecord name ↔ (o.after n).HasRecord name := by
  rw [Catalog.HasRecord, Catalog.relation?_eq_named?, before, o.kept, Catalog.HasRecord,
    Catalog.relation?_eq_named?, after, call]

theorem hasRecord_mono (hle : n ≤ k) (h : (o.before n).HasRecord name) :
    (o.before k).HasRecord name := by
  induction hle with
  | refl => exact h
  | step _ ih => exact hasRecord_succ.2 ((kept_after (o.kept_before _)).2 name ih)

theorem not_lt_of_adds (h : o.Adds n name) (h' : o.Adds k name) : ¬ n < k :=
  fun hlt => h'.1 (hasRecord_mono hlt (hasRecord_succ.2 h.2))

theorem nodup_all : (Migration.all.map Migration.name).Nodup :=
  List.nodup_singleton _

theorem prepared_of_call (h : (o.call n).result ≠ .ok ()) :
    (o.before n).Prepared (o.after n) := by
  by_cases hreaches : o.Reaches n
  · obtain ⟨d, seen, rest, hprepared, hall, hupgrade, -, hstopped⟩ :=
      Catalog.upgrade_migrate (o.refusals n) (o.before n) Migration.all
    have hseen : seen = [] := by
      obtain ⟨hseen, -⟩ | ⟨-, hrest⟩ := List.singleton_eq_append_iff.1 hall
      · exact hseen
      · have hleft := hstopped fun hok => h (call_eq_ok_iff.2 ⟨hreaches, hok⟩)
        exact hleft.resolve_right (not_not_intro hrest)
    rw [(call_of_reaches hreaches).2.2]
    subst hseen
    cases hupgrade
    exact hprepared
  · exact .inl (call_of_not_reaches hreaches).2.2

theorem upgrade_of_call (h : (o.call n).result = .ok ()) :
    ∃ d, (o.before n).Prepared d ∧ d.Upgrade Migration.all (o.after n) := by
  obtain ⟨hreaches, hok⟩ := call_eq_ok_iff.1 h
  obtain ⟨d, seen, rest, hprepared, hall, hupgrade, hdone, -⟩ :=
    Catalog.upgrade_migrate (o.refusals n) (o.before n) Migration.all
  rw [hdone hok, List.append_nil] at hall
  rw [(call_of_reaches hreaches).2.2]
  exact ⟨d, hprepared, hall ▸ hupgrade⟩

theorem perm_of_call (h : (o.call n).result = .ok ()) :
    ∃ r, (o.after n).relation? Migration.recordTable = some r ∧
      r.rows.length = Migration.all.length ∧
      (r.cells "name").Perm (Migration.all.map fun m => .text m.name) := by
  obtain ⟨d, hprepared, hupgrade⟩ := upgrade_of_call h
  obtain ⟨rfl, hnone⟩ | ⟨entries, hrecords, hnodup, hknown, -⟩ :=
    (o.kept_before n).prepared hprepared
  · cases (hupgrade.eq_of_no_records hnone).1
  · obtain ⟨entries', hrecords', hnodup', -, hnew, honly⟩ :=
      hupgrade.records Migration.defines_of_mem_all hrecords hnodup
    have hnames : (entries'.map Prod.snd).Perm (Migration.all.map Migration.name) := by
      refine (List.perm_ext_iff_of_nodup hnodup' nodup_all).2 fun name => ⟨fun hmem => ?_, ?_⟩
      · exact (List.append_subset.2 ⟨hknown, List.Subset.refl _⟩) (honly hmem)
      · exact fun hmem => hnew hmem
    refine ⟨_, hrecords', ?_, ?_⟩
    · have hlength := hnames.length_eq
      rw [List.length_map, List.length_map] at hlength
      exact (List.length_map _).trans hlength
    · have hcells := hnames.map Cell.text
      rw [List.map_map, List.map_map] at hcells
      rw [Migration.cells_name]
      exact hcells

theorem call_of_recorded (h : ∀ m ∈ Migration.all, (o.before n).HasRecord m.name) :
    o.after n = o.before n ∧ (o.call n).events = [] ∧
      (o.session n).result = (o.refusals n).outcome 0 (Migration.all.length + 1) ∧
      (o.session n).attempted <+: .createRecords :: Migration.all.map .lookUp := by
  obtain ⟨r, hr, -⟩ := h Migration.initialSchema List.mem_cons_self
  obtain ⟨entries, hentries, -⟩ := o.kept_before n _ (Catalog.named?_of_relation? hr)
  cases hentries
  have hnames : ∀ m ∈ Migration.all, m.name ∈ entries.map Prod.snd :=
    fun m hm => (Catalog.hasRecord_iff hr).1 (h m hm)
  have hread : ∀ m ∈ Migration.all, (o.before n).isRecorded m = .ok true := by
    intro m hm
    rw [Catalog.isRecorded_of_records hr, decide_eq_true (hnames m hm)]
  have hmigrated : (o.before n).migrate (o.refusals n) Migration.all = _ :=
    Catalog.migrate_of_recorded hr hnames
  refine ⟨?_, ?_, ?_, ?_⟩
  · by_cases hreaches : o.Reaches n
    · rw [(call_of_reaches hreaches).2.2, hmigrated]
    · exact (call_of_not_reaches hreaches).2.2
  · by_cases hreaches : o.Reaches n
    · rw [(call_of_reaches hreaches).2.1, hmigrated]
    · exact (call_of_not_reaches hreaches).2.1
  · rw [session, (Session.opened_eq_migrate _ _ _).2, hmigrated]
  · exact Session.attempted_opened _ (Catalog.createRecords_of_records hr) hread

def folderAfter (path : String) (refusals : ℕ → Refusals) (f : Folder) : ℕ → Folder
  | 0 => f
  | n + 1 => ((folderAfter path refusals f n).openDatabase (refusals n) path).folder

def undisturbed (path : String) {name : String} {mustExist : Bool}
    (located : Location.ofPath path = .ok (.file name mustExist)) (f : Folder)
    (fresh : (f.stored name).named? Migration.recordTable = none) (refusals : ℕ → Refusals) :
    Openings where
  path
  name
  mustExist
  located
  folder := folderAfter path refusals f
  refusals
  fresh
  kept n := by rw [folderAfter]

theorem migrate_empty_of_refused {refusals : Refusals} {fault : StorageFault}
    (hfirst : refusals 0 = none) (hsecond : refusals 1 = none) (hstart : refusals 2 = some fault) :
    (∅ : Catalog).migrate refusals Migration.all =
      ⟨.error fault, Catalog.withRecords ∅, [.migrationApplied Migration.initialSchema.name]⟩ := by
  have hcreate : (∅ : Catalog).executeText Migration.createRecords =
      .ok (Catalog.withRecords ∅) := by
    rw [Catalog.executeText_createRecords]
    rfl
  have hread : (Catalog.withRecords ∅).isRecorded Migration.initialSchema = .ok false :=
    Catalog.isRecorded_of_records (Catalog.records_withRecords rfl)
  simp [Catalog.migrate, Catalog.applyAll, Catalog.applyMigration, Refusals.attempt, hcreate, hread,
    Migration.all, bind, Except.bind, hfirst, hsecond, hstart]

end Openings

end ReviewRota
