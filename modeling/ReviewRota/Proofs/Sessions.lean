import ReviewRota.Catalog.Migration
import ReviewRota.Proofs.Change

/-!
# Sessions

An opening, command by command.  A transaction works on a copy of what is stored, which replaces it
when the transaction is committed.  The first command that fails ends the session, and the copy is
gone.
-/

namespace ReviewRota

namespace Refusals

variable {refusals : Refusals} {count : ℕ} {α β : Type} {statement : Except StorageFault α}

theorem attempt_eq_ok {a : α} :
    refusals.attempt count statement = .ok a ↔ refusals count = .none ∧ statement = .ok a := by
  rw [attempt]
  cases refusals count <;> simp

theorem attempt_map {f : α → β} :
    refusals.attempt count (statement.map f) = (refusals.attempt count statement).map f := by
  rw [attempt, attempt]
  cases refusals count <;> rfl

/-- How statements end of which each one is right, where the first has the number `count`. -/
def outcome (refusals : Refusals) (count n : ℕ) : Except StorageFault Unit :=
  match (List.range' count n).findSome? refusals with
  | some fault => .error fault
  | .none => .ok ()

theorem outcome_succ (n : ℕ) : refusals.outcome count (n + 1) =
    match refusals count with
    | some fault => .error fault
    | .none => refusals.outcome (count + 1) n := by
  rw [outcome, List.range'_succ, List.findSome?_cons]
  cases refusals count <;> rfl

end Refusals

namespace Migration

inductive Command where
  | createRecords
  | lookUp (m : Migration)
  | start
  | execute (sql : String)
  | record (m : Migration)
  | commit
  deriving DecidableEq, Repr

def transaction (m : Migration) : List Command :=
  .start :: ((Sql.statements m.script).map .execute ++ [.record m, .commit])

theorem length_transaction (m : Migration) :
    m.transaction.length = (Sql.statements m.script).length + 3 := by
  rw [transaction, List.length_cons, List.length_append, List.length_map]
  rfl

end Migration

open Migration (Command)

structure Session where
  stored : Catalog
  copy : Option Catalog
  fault : Option StorageFault
  attempted : List Command

namespace Session

def idle (c : Catalog) (done : List Command) : Session := ⟨c, none, none, done⟩

/-- The catalog that a command sees. -/
def catalog (s : Session) : Catalog := s.copy.getD s.stored

def write (s : Session) (c : Catalog) : Session :=
  if s.copy.isSome then { s with copy := some c } else { s with stored := c }

def perform (s : Session) : Command → Except StorageFault Session
  | .createRecords => (s.catalog.executeText Migration.createRecords).map s.write
  | .lookUp m => (s.catalog.isRecorded m).map fun _ => s
  | .start => .ok { s with copy := some s.stored }
  | .execute sql => (s.catalog.executeText sql).map s.write
  | .record m => (s.catalog.record m).map s.write
  | .commit => .ok { s with stored := s.catalog, copy := none }

def advance (refusals : Refusals) (s : Session) (command : Command) : Session :=
  match s.fault with
  | some _ => s
  | none =>
      let attempted := s.attempted ++ [command]
      match refusals.attempt s.attempted.length (s.perform command) with
      | .error fault => ⟨s.stored, none, some fault, attempted⟩
      | .ok s => { s with attempted }

def upgrade (refusals : Refusals) (s : Session) (m : Migration) : Session :=
  let s := s.advance refusals (.lookUp m)
  match s.catalog.isRecorded m with
  | .ok false => m.transaction.foldl (advance refusals) s
  | _ => s

def opened (refusals : Refusals) (c : Catalog) (ms : List Migration) : Session :=
  ms.foldl (upgrade refusals) ((idle c []).advance refusals .createRecords)

def result (s : Session) : Except StorageFault Unit :=
  match s.fault with
  | some fault => .error fault
  | none => .ok ()

variable {refusals : Refusals} {α β : Type} {s : Session} {command : Command}
  {commands done : List Command} {c stored : Catalog} {fault : StorageFault}

theorem foldl_advance_of_fault (h : s.fault = some fault) :
    commands.foldl (advance refusals) s = s := by
  induction commands with
  | nil => rfl
  | cons command rest ih => rw [List.foldl_cons, advance, h, ih]

/-- A session came as far as its commands are right; after a fault there is only what is stored. -/
def Follows (stored : Catalog) (reached : α → Session) (s : Session) :
    Except StorageFault α → Prop
  | .ok a => s = reached a
  | .error fault => ∃ tried, s = ⟨stored, none, some fault, tried⟩

variable (refusals)

theorem attempted_advance (command : Command) (h : s.fault = none) :
    (s.advance refusals command).attempted = s.attempted ++ [command] := by
  rw [advance, h]
  dsimp only
  split <;> rfl

theorem follows_advance (s : Session) (command : Command) {statement : Except StorageFault α}
    {f : α → Session} (hperform : s.perform command = statement.map f)
    (hfault : s.fault = none) :
    Follows s.stored (fun a => { f a with attempted := s.attempted ++ [command] })
      (s.advance refusals command) (refusals.attempt s.attempted.length statement) := by
  rw [advance, hfault, hperform, Refusals.attempt_map]
  cases refusals.attempt s.attempted.length statement with
  | error fault => exact ⟨_, rfl⟩
  | ok a => rfl

variable {refusals} in
theorem Follows.bind {reached : α → Session} {reached' : β → Session}
    {statement : Except StorageFault α} {next : α → Except StorageFault β}
    (h : Follows stored reached s statement)
    (hnext : ∀ a,
      Follows stored reached' (commands.foldl (advance refusals) (reached a)) (next a)) :
    Follows stored reached' (commands.foldl (advance refusals) s) (statement >>= next) := by
  cases statement with
  | error fault =>
      obtain ⟨tried, rfl⟩ := h
      exact ⟨tried, foldl_advance_of_fault rfl⟩
  | ok a =>
      cases h
      exact hnext a

theorem follows_execute (stored c : Catalog) (done : List Command) (statements : List String) :
    Follows stored (fun d => ⟨stored, some d, none, done ++ statements.map .execute⟩)
      ((statements.map .execute).foldl (advance refusals) ⟨stored, some c, none, done⟩)
      (c.executeAll refusals done.length statements) := by
  induction statements generalizing c done with
  | nil =>
      rw [List.map_nil, List.append_nil]
      rfl
  | cons sql rest ih =>
      rw [Catalog.executeAll, List.map_cons, List.foldl_cons]
      refine (follows_advance refusals ⟨stored, some c, none, done⟩ (.execute sql) rfl rfl).bind
        fun d => ?_
      have hrest := ih d (done ++ [.execute sql])
      rw [List.append_assoc, List.singleton_append, List.length_append] at hrest
      exact hrest

theorem follows_finish (c d : Catalog) (done : List Command) (m : Migration) :
    Follows c (fun d => idle d (done ++ [.record m, .commit]))
      ([Command.record m, .commit].foldl (advance refusals) ⟨c, some d, none, done⟩)
      (do
        let d ← refusals.attempt done.length (d.record m)
        refusals.attempt (done.length + 1) (.ok d)) := by
  rw [List.foldl_cons]
  refine (follows_advance refusals ⟨c, some d, none, done⟩ (.record m) rfl rfl).bind fun d => ?_
  have hperform : (⟨c, some d, none, done ++ [.record m]⟩ : Session).perform .commit =
      (Except.ok d).map fun d => idle d (done ++ [.record m]) := rfl
  have hcommit := follows_advance refusals _ _ hperform rfl
  rw [List.append_assoc, List.length_append] at hcommit
  exact hcommit

theorem follows_transaction (c : Catalog) (done : List Command) (m : Migration) :
    Follows c (fun d => idle d (done ++ m.transaction))
      (m.transaction.foldl (advance refusals) (idle c done))
      (c.applyMigration refusals done.length m) := by
  rw [Catalog.applyMigration, Migration.transaction, List.foldl_cons]
  have hperform : (idle c done).perform .start =
      (Except.ok ()).map fun _ => ⟨c, some c, none, done⟩ := rfl
  refine (follows_advance refusals (idle c done) .start hperform rfl).bind fun _ => ?_
  rw [List.foldl_append]
  have hstatements := follows_execute refusals c c (done ++ [.start])
    (Sql.statements m.script)
  rw [List.length_append] at hstatements
  refine hstatements.bind fun d => ?_
  have hlength : (done ++ [Command.start] ++ (Sql.statements m.script).map Command.execute).length =
      done.length + 1 + (Sql.statements m.script).length := by
    rw [List.length_append, List.length_append, List.length_map, List.length_singleton]
  have hfinish := follows_finish refusals c d
    (done ++ [.start] ++ (Sql.statements m.script).map .execute) m
  rw [hlength, List.append_assoc, List.append_assoc] at hfinish
  exact hfinish

theorem follows_lookUp (c : Catalog) (done : List Command) (m : Migration) :
    Follows c (fun _ => idle c (done ++ [.lookUp m])) ((idle c done).advance refusals (.lookUp m))
      (refusals.attempt done.length (c.isRecorded m)) :=
  follows_advance refusals (idle c done) (.lookUp m) rfl rfl

theorem follows_createRecords (c : Catalog) :
    Follows c (fun d => idle d [.createRecords]) ((idle c []).advance refusals .createRecords)
      (refusals.attempt 0 (c.executeText Migration.createRecords)) :=
  follows_advance refusals (idle c []) .createRecords rfl rfl

variable {refusals} {m : Migration} {ms : List Migration}

theorem upgrade_of_error (h : refusals.attempt done.length (c.isRecorded m) = .error fault) :
    (idle c done).upgrade refusals m = ⟨c, none, some fault, done ++ [.lookUp m]⟩ := by
  have hlook := follows_lookUp refusals c done m
  have hattempted := attempted_advance refusals (.lookUp m) (s := idle c done) rfl
  rw [h] at hlook
  obtain ⟨tried, hlook⟩ := hlook
  rw [hlook] at hattempted
  cases hattempted
  rw [upgrade, hlook]
  split
  · exact foldl_advance_of_fault rfl
  · rfl

theorem upgrade_of_recorded (h : refusals.attempt done.length (c.isRecorded m) = .ok true) :
    (idle c done).upgrade refusals m = idle c (done ++ [.lookUp m]) := by
  have hlook := follows_lookUp refusals c done m
  have hread : (idle c (done ++ [.lookUp m])).catalog.isRecorded m = .ok true :=
    (Refusals.attempt_eq_ok.1 h).2
  rw [h] at hlook
  rw [upgrade, hlook]
  dsimp only
  rw [hread]

theorem upgrade_of_unrecorded (h : refusals.attempt done.length (c.isRecorded m) = .ok false) :
    Follows c (fun d => idle d (done ++ [.lookUp m] ++ m.transaction))
      ((idle c done).upgrade refusals m) (c.applyMigration refusals (done.length + 1) m) := by
  have hlook := follows_lookUp refusals c done m
  have hread : (idle c (done ++ [.lookUp m])).catalog.isRecorded m = .ok false :=
    (Refusals.attempt_eq_ok.1 h).2
  have htransaction := follows_transaction refusals c (done ++ [.lookUp m]) m
  rw [List.length_append] at htransaction
  rw [h] at hlook
  rw [upgrade, hlook]
  dsimp only
  rw [hread]
  exact htransaction

theorem foldl_upgrade_of_fault (h : s.fault = some fault) : ms.foldl (upgrade refusals) s = s := by
  induction ms with
  | nil => rfl
  | cons m rest ih =>
      have hupgrade : s.upgrade refusals m = s := by
        rw [upgrade, advance, h]
        dsimp only
        split
        · exact foldl_advance_of_fault h
        · rfl
      rw [List.foldl_cons, hupgrade, ih]

theorem foldl_upgrade (refusals : Refusals) (c : Catalog) (done : List Command)
    (ms : List Migration) :
    (ms.foldl (upgrade refusals) (idle c done)).stored =
        (c.applyAll refusals done.length ms).catalog ∧
      (ms.foldl (upgrade refusals) (idle c done)).result =
        (c.applyAll refusals done.length ms).result := by
  induction ms generalizing c done with
  | nil => exact ⟨rfl, rfl⟩
  | cons m rest ih =>
      rw [List.foldl_cons, Catalog.applyAll]
      cases hread : refusals.attempt done.length (c.isRecorded m) with
      | error fault =>
          rw [upgrade_of_error hread, foldl_upgrade_of_fault rfl]
          exact ⟨rfl, rfl⟩
      | ok recorded =>
          cases recorded with
          | true =>
              have hrest := ih c (done ++ [.lookUp m])
              rw [List.length_append] at hrest
              rw [upgrade_of_recorded hread]
              exact hrest
          | false =>
              have hfollows := upgrade_of_unrecorded hread
              dsimp only
              cases happly : c.applyMigration refusals (done.length + 1) m with
              | error fault =>
                  rw [happly] at hfollows
                  obtain ⟨tried, hupgrade⟩ := hfollows
                  rw [hupgrade, foldl_upgrade_of_fault rfl]
                  exact ⟨rfl, rfl⟩
              | ok d =>
                  have hlength : (done ++ [Command.lookUp m] ++ m.transaction).length =
                      done.length + 4 + (Sql.statements m.script).length := by
                    rw [List.length_append, List.length_append, Migration.length_transaction,
                      List.length_singleton]
                    omega
                  have hrest := ih d (done ++ [.lookUp m] ++ m.transaction)
                  rw [happly, Follows] at hfollows
                  rw [hlength] at hrest
                  rw [hfollows]
                  exact hrest

theorem opened_eq_migrate (refusals : Refusals) (c : Catalog) (ms : List Migration) :
    (opened refusals c ms).stored = (c.migrate refusals ms).catalog ∧
      (opened refusals c ms).result = (c.migrate refusals ms).result := by
  have hfollows := follows_createRecords refusals c
  rw [opened, Catalog.migrate]
  cases hcreate : refusals.attempt 0 (c.executeText Migration.createRecords) with
  | error fault =>
      rw [hcreate] at hfollows
      obtain ⟨tried, hfollows⟩ := hfollows
      rw [hfollows, foldl_upgrade_of_fault rfl]
      exact ⟨rfl, rfl⟩
  | ok d =>
      rw [hcreate, Follows] at hfollows
      rw [hfollows]
      exact foldl_upgrade refusals d [.createRecords] ms

theorem attempted_of_recorded (refusals : Refusals) (done : List Command)
    (h : ∀ m ∈ ms, c.isRecorded m = .ok true) :
    (ms.foldl (upgrade refusals) (idle c done)).attempted <+: done ++ ms.map .lookUp := by
  induction ms generalizing done with
  | nil => exact List.prefix_append done []
  | cons m rest ih =>
      have hrest := ih (done ++ [.lookUp m]) fun m' hm' => h m' (List.mem_cons_of_mem m hm')
      rw [List.map_cons, List.append_cons, List.foldl_cons]
      cases hread : refusals.attempt done.length (c.isRecorded m) with
      | error fault =>
          rw [upgrade_of_error hread, foldl_upgrade_of_fault rfl]
          exact List.prefix_append _ _
      | ok recorded =>
          obtain rfl : true = recorded :=
            Except.ok.inj ((h m List.mem_cons_self).symm.trans (Refusals.attempt_eq_ok.1 hread).2)
          rw [upgrade_of_recorded hread]
          exact hrest

theorem attempted_opened (refusals : Refusals)
    (hcreate : c.executeText Migration.createRecords = .ok c)
    (h : ∀ m ∈ ms, c.isRecorded m = .ok true) :
    (opened refusals c ms).attempted <+: .createRecords :: ms.map .lookUp := by
  have hfollows := follows_createRecords refusals c
  have hattempted := attempted_advance refusals .createRecords (s := idle c []) rfl
  rw [opened]
  cases hread : refusals.attempt 0 (c.executeText Migration.createRecords) with
  | error fault =>
      rw [hread] at hfollows
      obtain ⟨tried, hfollows⟩ := hfollows
      rw [foldl_upgrade_of_fault (congrArg Session.fault hfollows), hattempted]
      exact List.prefix_append [Command.createRecords] _
  | ok d =>
      obtain rfl : c = d :=
        Except.ok.inj (hcreate.symm.trans (Refusals.attempt_eq_ok.1 hread).2)
      rw [hread, Follows] at hfollows
      rw [hfollows]
      exact attempted_of_recorded refusals [.createRecords] h

end Session

end ReviewRota
