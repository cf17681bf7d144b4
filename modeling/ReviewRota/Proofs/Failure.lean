import Mathlib
import ReviewRota.Proofs.Calls
import ReviewRota.Proofs.Transaction

/-!
# Errors leave no trace

A service that runs alone may be failed at any access to the engine: when a transaction begins, at
any of its statements and when it is committed.  If it ends with an error, of whatever origin, then
the database is what it was before; if it succeeds then nothing has failed.
-/

namespace ReviewRota

namespace Store

variable {outages : Outages} {s : Store} {c : StoreCall} {n : Nat}

def transact (outages : Outages) (n : Nat) (s : Store) (c : StoreCall) : Attempt c.Answer :=
  if s.isOpen then
    match outages n with
    | some e => ⟨.error e, s.database, n + 1⟩
    | none => (c.transaction s.rejects).run outages s.database (n + 1) s.database
  else ⟨.error (.storage .poolClosed c.opening), s.database, n + 1⟩

theorem lt_accesses : n < (s.transact outages n c).accesses := by
  unfold transact
  split
  · split
    · exact Nat.lt_succ_self n
    · exact Transaction.le_accesses
  · exact Nat.lt_succ_self n

theorem transact_error {e : Error} (h : (s.transact outages n c).result = .error e) :
    (s.transact outages n c).database = s.database := by
  unfold transact at h ⊢
  split
  · next hopen =>
      rw [if_pos hopen] at h
      split at h
      · rfl
      · exact Transaction.run_error h
  · rfl

theorem transact_ok {answer : c.Answer} (h : (s.transact outages n c).result = .ok answer) :
    ∀ k, n ≤ k → k < (s.transact outages n c).accesses → outages k = none := by
  intro k hle hlt
  unfold transact at h hlt
  split at h
  · next hopen =>
      rw [if_pos hopen] at hlt
      split at h
      · cases h
      · next hnone =>
          simp only [hnone] at hlt
          rcases Nat.eq_or_lt_of_le hle with rfl | hlater
          · exact hnone
          · exact Transaction.run_ok h k hlater hlt
  · cases h

theorem transact_of_calm
    (hcalm : ∀ k, n ≤ k → k < (s.transact outages n c).accesses → outages k = none) :
    (s.transact outages n c).result = (s.perform c).result ∧
      (s.transact outages n c).database = (s.perform c).store.database := by
  have hfirst : outages n = none := hcalm n (Nat.le_refl n) lt_accesses
  unfold transact at hcalm ⊢
  unfold perform
  split
  · next hopen =>
      simp only [hopen, hfirst, if_true] at hcalm ⊢
      have hrun := Transaction.run_of_calm fun k hle => hcalm k (Nat.le_of_succ_le hle)
      rw [StoreCall.effect_transaction] at hrun
      split
      · next heffect =>
          rw [heffect] at hrun
          exact ⟨hrun.1, hrun.2 _ _ rfl⟩
      · next heffect =>
          rw [heffect] at hrun
          exact ⟨hrun.1, Transaction.run_error hrun.1⟩
  · exact ⟨rfl, rfl⟩

end Store

namespace Service

variable {α : Type} {outages : Outages} {clock : Int64} {n : Nat} {s : Store} {selector : Selector}

def runDespite (outages : Outages) (clock : Int64) :
    Service α → Nat → Store → Selector → Attempt α
  | .done result, n, s, _ => ⟨result, s.database, n⟩
  | .call c next, n, s, selector =>
      let reply := s.transact outages n c
      runDespite outages clock (next reply.result) reply.accesses
        { s with database := reply.database } selector
  | .choose candidates max next, n, s, selector =>
      let (chosen, selector) := selector.select candidates max
      runDespite outages clock (next chosen) n s selector
  | .readClock next, n, s, selector => runDespite outages clock (next clock) n s selector
  | .note _ next, n, s, selector => runDespite outages clock next n s selector

theorem runDespite_call {c : StoreCall} {next : Except Error c.Answer → Service α} :
    (Service.call c next).runDespite outages clock n s selector =
      (next (s.transact outages n c).result).runDespite outages clock
        (s.transact outages n c).accesses
        { s with database := (s.transact outages n c).database } selector := rfl

theorem le_accesses {service : Service α} :
    n ≤ (service.runDespite outages clock n s selector).accesses := by
  induction service generalizing n s selector with
  | done result => exact Nat.le_refl n
  | call c next ih => exact Nat.le_trans (Nat.le_of_lt Store.lt_accesses) (ih _)
  | choose candidates max next ih => exact ih _
  | readClock next ih => exact ih _
  | note event next ih => exact ih

theorem runDespite_of_calm {service : Service α}
    (hcalm : ∀ k, n ≤ k → k < (service.runDespite outages clock n s selector).accesses →
      outages k = none) :
    (service.runDespite outages clock n s selector).result =
        (service.run clock s selector).1.result ∧
      (service.runDespite outages clock n s selector).database =
        (service.run clock s selector).1.store.database := by
  induction service generalizing n s selector with
  | done result => exact ⟨rfl, rfl⟩
  | call c next ih =>
      obtain ⟨hresult, hdatabase⟩ := Store.transact_of_calm (s := s) (c := c) fun k hle hlt =>
        hcalm k hle (Nat.lt_of_lt_of_le hlt le_accesses)
      have hrest := ih _ fun k hle hlt =>
        hcalm k (Nat.le_trans (Nat.le_of_lt Store.lt_accesses) hle) hlt
      rw [hdatabase, ← Store.store_perform] at hrest
      rw [runDespite_call, hdatabase, ← Store.store_perform]
      rw [hresult] at hrest ⊢
      exact hrest
  | choose candidates max next ih => exact ih _ hcalm
  | readClock next ih => exact ih _ hcalm
  | note event next ih => exact ih hcalm

theorem runDespite_ok {asks : StoreCall → Prop} {service : Service α} {answer : α}
    (hheeds : service.Heeds asks)
    (h : (service.runDespite outages clock n s selector).result = .ok answer) :
    ∀ k, n ≤ k → k < (service.runDespite outages clock n s selector).accesses →
      outages k = none := by
  intro k hle hlt
  induction service generalizing n s selector with
  | done result => exact absurd hlt (Nat.not_lt.2 hle)
  | call c next ih =>
      obtain ⟨-, herror, hok⟩ := hheeds
      rw [runDespite_call] at h hlt
      cases hresult : (s.transact outages n c).result with
      | error e =>
          rw [hresult, herror] at h
          cases h
      | ok a =>
          rw [hresult] at h hlt
          rcases Nat.lt_or_ge k (s.transact outages n c).accesses with hbefore | hafter
          · exact Store.transact_ok hresult k hle hbefore
          · exact ih _ (hok a) h hafter hlt
  | choose candidates max next ih => exact ih _ (hheeds _) h hle hlt
  | readClock next ih => exact ih _ (hheeds _) h hle hlt
  | note event next ih => exact ih hheeds h hle hlt

end Service

namespace Action

variable {a : Action} {outages : Outages} {clock : Int64} {n : Nat} {s : Store}
  {selector : Selector}

/-- Whatever is chosen, as long as nothing but silent calls was made the database is the first
one, and after another call no error may follow. -/
theorem runDespite_error {start : Database} {e : Error} {h : List Move}
    {service : Service a.Answer} (hheeds : service.Heeds a.Asks)
    (houtline : service.Outline (fun _ _ _ => True) (StoreCall.Founded fun _ _ _ => True)
      a.Closing h)
    (hstart : (∀ m ∈ h, m.Silent) → s.database = start)
    (herror : (service.runDespite outages clock n s selector).result = .error e) :
    (service.runDespite outages clock n s selector).database = start := by
  induction service generalizing h n s selector with
  | done result =>
      subst herror
      exact hstart houtline
  | call c next ih =>
      have hsilent := Service.silent_of_outline hheeds houtline
      rw [Service.runDespite_call] at herror ⊢
      cases hresult : (s.transact outages n c).result with
      | error e' =>
          rw [hheeds.2.1]
          exact (Store.transact_error hresult).trans (hstart hsilent)
      | ok answer =>
          obtain ⟨hperform, hdatabase⟩ := Store.transact_of_calm (Store.transact_ok hresult)
          rw [hresult] at herror hperform
          have hnext := houtline.2 0 s
          rw [← hperform] at hnext
          refine ih _ (hheeds.2.2 answer) hnext (fun hsilent' => ?_) herror
          have hquiet : (s.perform c).store.database = s.database := hsilent' _ List.mem_cons_self
          rw [← hstart hsilent, ← hquiet]
          exact hdatabase
  | choose candidates max next ih => exact ih _ (hheeds _) (houtline _ trivial) hstart herror
  | readClock next ih => exact ih _ (hheeds _) (houtline _) hstart herror
  | note event next ih => exact ih hheeds houtline hstart herror

/-- Whatever fails, a service that ends with an error leaves the database as it was.  One that
succeeds has met no failure, and then it has done what it does when its calls happen at once. -/
theorem failure_without_trace (a : Action) (s : Store) (clock : Int64) (selector : Selector)
    (outages : Outages) :
    let attempt := a.service.runDespite outages clock 0 s selector
    let reply := (a.service.run clock s selector).1
    (∀ e, attempt.result = .error e → attempt.database = s.database) ∧
      (∀ answer, attempt.result = .ok answer → ∀ k < attempt.accesses, outages k = none) ∧
      ((∀ k < attempt.accesses, outages k = none) →
        attempt.result = reply.result ∧ attempt.database = reply.store.database) ∧
      ∀ e, reply.result = .error e → reply.store.database = s.database := by
  have hsame : ∀ (outages : Outages) (e : Error),
      (a.service.runDespite outages clock 0 s selector).result = .error e →
        (a.service.runDespite outages clock 0 s selector).database = s.database :=
    fun outages e => runDespite_error a.heeds_service a.outline_service fun _ => rfl
  refine ⟨hsame outages, fun answer h k hlt => ?_, fun hcalm => ?_, fun e herror => ?_⟩
  · exact Service.runDespite_ok a.heeds_service h k (Nat.zero_le k) hlt
  · exact Service.runDespite_of_calm fun k _ => hcalm k
  · obtain ⟨hresult, hdatabase⟩ : (a.service.runDespite (fun _ => none) clock 0 s selector).result =
          (a.service.run clock s selector).1.result ∧
        (a.service.runDespite (fun _ => none) clock 0 s selector).database =
          (a.service.run clock s selector).1.store.database :=
      Service.runDespite_of_calm fun _ _ _ => rfl
    rw [← hdatabase]
    exact hsame _ e (hresult.trans herror)

def moved : Store :=
  let start : List Action := [
    .createTeam "web" [⟨"a", "Ann", true⟩, ⟨"b", "Bob", true⟩, ⟨"c", "Cid", true⟩,
      ⟨"d", "Dan", true⟩],
    .createPullRequest "p" "Fix" "a", .createTeam "ops" [⟨"b", "Bob", true⟩]]
  start.foldl (fun s action => (action.service.run 5 s .first).1.store) ∅

def failingAt (k : Nat) : Outages := fun n =>
  if n = k then some (.storage .poolTimedOut none) else none

/-- Eleven accesses take the new team off duty and repair the pull request.  None of them may
fail. -/
theorem failure_without_trace_moved :
    ((deactivateTeam "ops").service.run 7 moved .first).1.store.database.reviewersOf "p" =
        ["c", "d"] ∧
      ∀ k < 11,
        let attempt := (deactivateTeam "ops").service.runDespite (failingAt k) 7 0 moved .first
        (∃ e, attempt.result = .error e) ∧ attempt.database = moved.database := by
  have hfails : ((List.range 11).all fun k => !((deactivateTeam "ops").service.runDespite
      (failingAt k) 7 0 moved .first).result.isOk) = true := by cbv
  refine ⟨by cbv, fun k hk => ?_⟩
  have hk := List.all_eq_true.1 hfails k (List.mem_range.2 hk)
  cases hresult : ((deactivateTeam "ops").service.runDespite (failingAt k) 7 0 moved
      .first).result with
  | ok answer =>
      rw [hresult] at hk
      cases hk
  | error e =>
      obtain ⟨hunchanged, -⟩ :=
        failure_without_trace (deactivateTeam "ops") moved 7 .first (failingAt k)
      exact ⟨⟨e, hresult⟩, hunchanged e hresult⟩

end Action

end ReviewRota
