import Mathlib
import ReviewRota.Catalog.Migration
import ReviewRota.Proofs.Change

/-!
# The table of records

The table of records is known by the number and the name in each of its rows.  Statements that only
define something leave it alone, and recording a migration adds one row.
-/

namespace ReviewRota

open Sql (Cell Column Statement Token)

namespace Sql

/-- Whether a statement neither drops anything nor puts in rows. -/
def Statement.Defines : Statement → Prop
  | .drop _ | .insert .. => False
  | _ => True

namespace Statement

variable {ts : List Token} {statement : Statement}

theorem defines_of_createTable? (h : createTable? ts = some statement) : statement.Defines := by
  rw [createTable?, Option.bind_eq_bind, Option.bind_eq_some_iff] at h
  obtain ⟨⟨name, rest⟩, -, h⟩ := h
  dsimp only at h
  split at h
  · cases h
    trivial
  · cases h
    trivial

theorem defines_of_createIndex? (h : createIndex? ts = some statement) : statement.Defines := by
  simp only [createIndex?, Option.bind_eq_bind, Option.bind_eq_some_iff] at h
  obtain ⟨_, -, _, -, _, -, _, -, h⟩ := h
  cases h
  trivial

theorem defines_of_createView? (h : createView? ts = some statement) : statement.Defines := by
  rw [createView?, Option.bind_eq_bind, Option.bind_eq_some_iff] at h
  obtain ⟨_, -, h⟩ := h
  cases h
  trivial

theorem defines_of_createTrigger? (h : createTrigger? ts = some statement) :
    statement.Defines := by
  simp only [createTrigger?, Option.bind_eq_bind, Option.bind_eq_some_iff] at h
  obtain ⟨_, -, _, -, _, -, _, -, _, -, h⟩ := h
  cases h
  trivial

theorem defines_of_create? (h : create? ts = some statement) : statement.Defines := by
  cases ts with
  | nil => cases h
  | cons t rest =>
      rw [create?] at h
      split_ifs at h
      · exact defines_of_createTable? h
      · exact defines_of_createIndex? h
      · exact defines_of_createIndex? h
      · exact defines_of_createView? h
      · exact defines_of_createTrigger? h

end Statement

theorem first?_create (rest : List Char) :
    Token.first? 'C' ("REATE ".toList ++ rest) = some ([.word "CREATE"], ' ' :: rest) := by
  rfl

theorem all_create (rest : List Char) :
    Token.all ("CREATE ".toList ++ rest) = .word "CREATE" :: Token.all (' ' :: rest) := by
  change Token.all ('C' :: ("REATE ".toList ++ rest)) = _
  have hshorter : (' ' :: rest).length ≤ ("REATE ".toList ++ rest).length := by
    have hlength : "REATE ".toList.length = 6 := rfl
    rw [List.length_append, hlength, List.length_cons]
    omega
  rw [Token.all, first?_create]
  simp only [if_pos hshorter, List.singleton_append]

theorem defines_ofText {sql : String} (h : "CREATE ".toList <+: sql.toList) :
    (Statement.ofText sql).Defines := by
  obtain ⟨rest, hrest⟩ := h
  have hkeyword : Token.isKeyword "CREATE" (.word "CREATE") = true := by cbv
  rw [Statement.ofText, ← hrest, all_create, Statement.ofTokens?, if_pos hkeyword]
  cases hcreate : Statement.create? (Token.all (' ' :: rest)) with
  | none => trivial
  | some statement => exact Statement.defines_of_create? hcreate

end Sql

namespace Catalog

variable {c c' d : Catalog} {name : String} {r r' : Relation}

theorem named?_of_relation? (h : c.relation? name = some r) : c.named? name = some (.inl r) := by
  rw [named?, h]

theorem relation?_eq_named? : c.relation? name = (c.named? name).bind Sum.getLeft? := by
  rw [named?]
  cases c.relation? name with
  | some r => rfl
  | none => cases c.view? name <;> rfl

theorem read_of_relation? (h : c.relation? name = some r) : c.read name = .ok r := by
  rw [read, named?_of_relation? h]

theorem relation?_createTable {table : String} {columns : List Column}
    (h : c.createTable table columns = .ok c') (hr : c.relation? name = some r) :
    c'.relation? name = some r := by
  rw [createTable] at h
  split_ifs at h
  · cases h
    exact hr
  · cases h
    rw [relation?, List.find?_append, ← relation?, hr, Option.some_or]

theorem relations_createIndex {index table : String} {columns : List String}
    (h : c.createIndex index table columns = .ok c') : c'.relations = c.relations := by
  rw [createIndex] at h
  split at h
  · cases h
  · split_ifs at h
    · cases h
      rfl
    · split at h <;> cases h
      rfl

theorem relation?_execute {statement : Statement} (hdefines : statement.Defines)
    (h : c.execute statement = .ok c') (hr : c.relation? name = some r) :
    c'.relation? name = some r := by
  cases statement with
  | createTable table columns => exact relation?_createTable h hr
  | createIndex index table columns =>
      rw [relation?, relations_createIndex h]
      exact hr
  | createView view columns query =>
      rw [execute, createView] at h
      split_ifs at h <;> cases h <;> exact hr
  | createGuard guard table message =>
      cases h
      exact hr
  | other =>
      cases h
      exact hr
  | drop | insert => exact hdefines.elim

theorem relation?_foldlM {statements : List String} {r : Relation}
    (hdefines : ∀ sql ∈ statements, (Statement.ofText sql).Defines)
    (h : statements.foldlM executeText c = .ok c') (hr : c.relation? name = some r) :
    c'.relation? name = some r := by
  induction statements generalizing c with
  | nil =>
      cases h
      exact hr
  | cons sql rest ih =>
      rw [List.foldlM_cons, bind_eq_ok] at h
      obtain ⟨d, hsql, hrest⟩ := h
      exact ih (fun s hs => hdefines s (List.mem_cons_of_mem sql hs)) hrest
        (relation?_execute (hdefines sql List.mem_cons_self) hsql hr)

end Catalog

namespace Migration

def Defines (m : Migration) : Prop :=
  ∀ sql ∈ Sql.statements m.script, (Statement.ofText sql).Defines

def recordColumns : List Column :=
  [⟨"id", true, true, false, true, true, .null⟩, ⟨"name", false, false, true, false, true, .null⟩,
    ⟨"applied_at", true, false, true, false, false, .computed⟩]

def recordsOf (entries : List (Int × String)) : Relation where
  name := recordTable
  columns := recordColumns
  rows := entries.map fun entry => [.integer entry.1, .text entry.2, .computed]

theorem ofText_createRecords :
    Statement.ofText createRecords = .createTable recordTable recordColumns := by
  cbv

variable {entries : List (Int × String)}

theorem cells_id : (recordsOf entries).cells "id" = entries.map (.integer ·.1) := by
  have hindex : (recordColumns.findIdx? fun c => sameName c.name "id") = some 0 := by cbv
  rw [Relation.cells, recordsOf]
  simp only [hindex, List.map_map]
  rfl

theorem cells_name : (recordsOf entries).cells "name" = entries.map (.text ·.2) := by
  have hindex : (recordColumns.findIdx? fun c => sameName c.name "name") = some 1 := by cbv
  rw [Relation.cells, recordsOf]
  simp only [hindex, List.map_map]
  rfl

theorem column?_isSome {column : String} (h : column = "id" ∨ column = "name") :
    ((recordsOf entries).column? column).isSome = true := by
  change (recordColumns.find? fun c => sameName c.name column).isSome = true
  obtain rfl | rfl := h <;> cbv

theorem insert_recordsOf {name : String} {r : Relation}
    (h : (recordsOf entries).insert [("name", .text name)] = .ok r) :
    ∃ id, r = recordsOf (entries ++ [(id, name)]) := by
  have hid : sameName "name" "id" = false := by cbv
  have hname : sameName "name" "name" = true := by cbv
  have htime : sameName "name" "applied_at" = false := by cbv
  obtain ⟨id, hrow⟩ : ∃ id, (recordsOf entries).columns.map
      ((recordsOf entries).cellFor [("name", .text name)]) =
        [.integer id, .text name, .computed] :=
    ⟨_, by simp [recordsOf, recordColumns, Relation.cellFor, hid, hname, htime]; rfl⟩
  refine ⟨id, ?_⟩
  rw [Relation.insert, hrow] at h
  dsimp only at h
  split at h
  · cases h
  · split at h
    · cases h
    · cases h
      rw [recordsOf, recordsOf, List.map_append]
      rfl

end Migration

theorem sameName_iff {a b : String} : sameName a b = true ↔ a.toLower = b.toLower := by
  rw [sameName, decide_eq_true_eq]

namespace Catalog

open Migration (recordTable recordsOf)

variable {c c' : Catalog} {m : Migration} {entries : List (Int × String)} {name : String}

theorem relation?_put {r r' : Relation} (hr : c.relation? name = some r)
    (hname : r'.name = r.name) : (c.put r').relation? name = some r' := by
  have hsame : r.name.toLower = name.toLower :=
    sameName_iff.1 (List.find?_some (p := fun r : Relation => sameName r.name name) hr)
  have hfind : ∀ old : Relation,
      sameName (if sameName old.name r'.name then r' else old).name name =
        sameName old.name name := by
    intro old
    split
    · next hold =>
        rw [sameName_iff] at hold
        rw [Bool.eq_iff_iff, sameName_iff, sameName_iff, hold]
    · rfl
  rw [relation?, put, List.find?_map]
  change (c.relations.find? fun old =>
    sameName (if sameName old.name r'.name then r' else old).name name).map _ = _
  simp only [hfind]
  rw [← relation?, hr, Option.map_some, if_pos (sameName_iff.2 (by rw [hname]))]

def Records (c : Catalog) (entries : List (Int × String)) : Prop :=
  c.relation? recordTable = some (recordsOf entries)

theorem isRecorded_of_records (h : c.Records entries) :
    c.isRecorded m = .ok (decide (m.name ∈ entries.map Prod.snd)) := by
  have hid : c.records "id" = .ok (entries.map (.integer ·.1)) := by
    rw [records, read_of_relation? h, ok_bind, if_pos (Migration.column?_isSome (.inl rfl)),
      Migration.cells_id]
  have hname : c.records "name" = .ok (entries.map (.text ·.2)) := by
    rw [records, read_of_relation? h, ok_bind, if_pos (Migration.column?_isSome (.inr rfl)),
      Migration.cells_name]
  have hzip : (entries.map fun entry => Cell.integer entry.1).zip
      (entries.map fun entry => Cell.text entry.2) =
        entries.map fun entry => (Cell.integer entry.1, Cell.text entry.2) := by
    rw [List.zip_map']
  have hfind : ((entries.map fun entry => (Cell.integer entry.1, Cell.text entry.2)).find?
      fun row => row.2 = .text m.name) = (entries.find? fun entry => entry.2 = m.name).map
        fun entry => (.integer entry.1, .text entry.2) := by
    rw [List.find?_map]
    simp only [Function.comp_def, Cell.text.injEq]
  rw [isRecorded, hid, hname]
  dsimp only [bind, Except.bind]
  rw [hzip, hfind]
  cases hentry : entries.find? fun entry => entry.2 = m.name with
  | none =>
      have hnot : m.name ∉ entries.map Prod.snd := by
        intro hmem
        obtain ⟨entry, hentries, hname⟩ := List.mem_map.1 hmem
        exact List.find?_eq_none.1 hentry entry hentries (decide_eq_true hname)
      rw [decide_eq_false hnot]
      rfl
  | some entry =>
      have hname : entry.2 = m.name := by simpa using List.find?_some hentry
      have hmem : m.name ∈ entries.map Prod.snd :=
        hname ▸ List.mem_map_of_mem (List.mem_of_find?_eq_some hentry)
      rw [decide_eq_true hmem]
      rfl

theorem records_of_record (h : c.Records entries) (hrecord : c.record m = .ok c') :
    ∃ id, c'.Records (entries ++ [(id, m.name)]) := by
  rw [record, insert, h] at hrecord
  dsimp only at hrecord
  split at hrecord
  · cases hrecord
  · split at hrecord
    · cases hrecord
    · rw [bind_eq_ok] at hrecord
      obtain ⟨r, hr, hput⟩ := hrecord
      rw [List.foldlM_cons, bind_eq_ok] at hr
      obtain ⟨_, hinsert, hnil⟩ := hr
      cases hnil
      cases hput
      obtain ⟨id, rfl⟩ := Migration.insert_recordsOf hinsert
      exact ⟨id, relation?_put h rfl⟩

def HasRecord (c : Catalog) (name : String) : Prop :=
  ∃ r, c.relation? recordTable = some r ∧ .text name ∈ r.cells "name"

theorem hasRecord_iff (h : c.Records entries) :
    c.HasRecord name ↔ name ∈ entries.map Prod.snd := by
  have hcell : .text name ∈ entries.map (fun entry => Cell.text entry.2) ↔
      name ∈ entries.map Prod.snd := by
    simp only [List.mem_map, Cell.text.injEq]
  rw [← hcell, ← Migration.cells_name]
  constructor
  · rintro ⟨r, hr, hname⟩
    cases h.symm.trans hr
    exact hname
  · exact fun hname => ⟨recordsOf entries, h, hname⟩

end Catalog

end ReviewRota
