import ReviewRota.Proofs.Outline

/-!
# Services that run alone

What a service returns and what it leaves when nobody comes between its calls.  The rules follow a
service step by step, so that a whole service comes out as one equation.
-/

namespace ReviewRota

namespace Store

structure Calm (s : Store) : Prop where
  isOpen : s.isOpen = true
  permits : ∀ c, s.rejects c = false

variable {s : Store} {c : StoreCall} {answer : c.Answer}

theorem perform_look (hopen : s.isOpen = true)
    (h : c.effect s.rejects s.database = (.ok (answer, s.database), [])) :
    s.perform c = ⟨.ok answer, s, []⟩ := by
  unfold perform
  rw [if_pos hopen, h]

theorem result_perform (hopen : s.isOpen = true) :
    (s.perform c).result = (c.effect s.rejects s.database).1.map Prod.fst := by
  unfold perform
  rw [if_pos hopen]
  rcases c.effect s.rejects s.database with ⟨_ | ⟨answer, db⟩, events⟩ <;> rfl

theorem perform_of_error {e : Error} (hopen : s.isOpen = true)
    (h : (c.effect s.rejects s.database).1 = .error e) :
    (s.perform c).result = .error e ∧ (s.perform c).store = s := by
  have hresult : (s.perform c).result = .error e := by
    rw [result_perform hopen, h]
    rfl
  exact ⟨hresult, perform_eq_error hresult⟩

theorem result_of_looks (hopen : s.isOpen = true) (hlooks : c.looks = true) :
    ∃ answer, (s.perform c).result = .ok answer := by
  rw [result_perform hopen]
  cases c <;> first | exact ⟨_, rfl⟩ | cases hlooks

end Store

def Turn.isDisturbance : Turn → Bool
  | .disturb .. => true
  | .idle | .arrive _ | .act .. => false

theorem System.calm_turn {s : System} {turn : Turn} (h : s.store.Calm)
    (hturn : turn.isDisturbance = false) : (s.turn turn).store.Calm := by
  cases turn with
  | idle | arrive action => exact h
  | disturb rejects isOpen => cases hturn
  | act i chosen now =>
      simp only [System.turn, System.act]
      cases s.clients[i]? with
      | none => exact h
      | some client =>
          change (client.rest.step chosen now s.store).2.Calm
          cases client.rest with
          | call c next =>
              rw [Service.step, Store.store_perform]
              exact ⟨h.isOpen, h.permits⟩
          | done | choose | readClock | note => exact h

theorem Trace.calm_of_undisturbed {contract : Contract} {t : Trace contract}
    (h : ∀ n, (t.turns n).isDisturbance = false) (n : Nat) : (t.store n).Calm := by
  induction n with
  | zero => exact ⟨rfl, fun _ => rfl⟩
  | succ n ih => exact System.calm_turn ih (h n)

theorem Trace.calm_ofList {contract : Contract} {turns : List Turn}
    {hallows : (∅ : System).Allows contract turns}
    (h : (turns.all fun turn => !turn.isDisturbance) = true) (n : Nat) :
    ((ofList turns hallows).store n).Calm := by
  refine calm_of_undisturbed (fun n => ?_) n
  change (turns.getD n .idle).isDisturbance = false
  rw [List.getD_eq_getElem?_getD]
  cases hturn : turns[n]? with
  | none => rfl
  | some turn => simpa using List.all_eq_true.1 h turn (List.mem_of_getElem? hturn)

namespace Service

variable {α β : Type} {clock : Int64} {s : Store} {selector : Selector}

theorem bind_bind {γ : Type} {service : Service α} {f : α → Service β} {g : β → Service γ} :
    (service >>= f) >>= g = service >>= fun a => f a >>= g := by
  change (service.bind f).bind g = service.bind fun a => (f a).bind g
  induction service with
  | done result => cases result <;> rfl
  | call c next ih => exact congrArg (Service.call c) (funext fun answer => ih answer)
  | choose candidates max next ih =>
      exact congrArg (Service.choose candidates max) (funext fun chosen => ih chosen)
  | readClock next ih => exact congrArg Service.readClock (funext fun now => ih now)
  | note event next ih => exact congrArg (Service.note event) ih

theorem pure_bind {a : α} {f : α → Service β} : (pure a : Service α) >>= f = f a := rfl

def outcome (clock : Int64) (s : Store) (selector : Selector) (service : Service α) :
    Except Error α × Store :=
  ((service.run clock s selector).1.result, (service.run clock s selector).1.store)

@[simp] theorem outcome_pure {a : α} :
    (pure a : Service α).outcome clock s selector = (.ok a, s) := rfl

@[simp] theorem outcome_fail {e : Error} :
    (fail e : Service α).outcome clock s selector = (.error e, s) := rfl

@[simp] theorem outcome_ask {c : StoreCall} :
    (ask c).outcome clock s selector = ((s.perform c).result, (s.perform c).store) := rfl

@[simp] theorem outcome_ofExcept_bind {r : Except Error α} {f : α → Service β} :
    (ofExcept r >>= f).outcome clock s selector =
      match r with
      | .ok a => (f a).outcome clock s selector
      | .error e => (.error e, s) := by
  cases r <;> rfl

@[simp] theorem outcome_orFail_bind {e : Error} {o : Option α} {f : α → Service β} :
    (orFail e o >>= f).outcome clock s selector =
      match o with
      | some a => (f a).outcome clock s selector
      | none => (.error e, s) := by
  cases o <;> rfl

@[simp] theorem outcome_ask_bind {c : StoreCall} {f : c.Answer → Service β} :
    (ask c >>= f).outcome clock s selector =
      match (s.perform c).result with
      | .ok answer => (f answer).outcome clock (s.perform c).store selector
      | .error e => (.error e, (s.perform c).store) := by
  change (bind f (.call c .done)).outcome clock s selector = _
  simp only [bind, outcome, run]
  cases (s.perform c).result <;> rfl

theorem outcome_look {c : StoreCall} {answer : c.Answer} (h : s.perform c = ⟨.ok answer, s, []⟩) :
    (ask c).outcome clock s selector = (.ok answer, s) := by
  rw [outcome_ask, h]

theorem outcome_look_bind {c : StoreCall} {answer : c.Answer} {f : c.Answer → Service β}
    (h : s.perform c = ⟨.ok answer, s, []⟩) :
    (ask c >>= f).outcome clock s selector = (f answer).outcome clock s selector := by
  rw [outcome_ask_bind, h]

@[simp] theorem outcome_choice_bind {candidates : List String} {max : Nat}
    {f : List String → Service β} :
    (choice candidates max >>= f).outcome clock s selector =
      (f (selector.select candidates max).1).outcome clock s (selector.select candidates max).2 :=
  rfl

@[simp] theorem outcome_now_bind {f : Int64 → Service β} :
    (now >>= f).outcome clock s selector = (f clock).outcome clock s selector := rfl

@[simp] theorem outcome_log_bind {event : Event} {f : Unit → Service β} :
    (log event >>= f).outcome clock s selector = (f ()).outcome clock s selector := rfl

@[simp] theorem outcome_bind_pure {service : Service α} {f : α → β} :
    (service >>= fun a => pure (f a)).outcome clock s selector =
      ((service.outcome clock s selector).1.map f, (service.outcome clock s selector).2) := by
  change (service.bind (pure ∘ f)).outcome clock s selector = _
  induction service generalizing s selector with
  | done result => cases result <;> rfl
  | call c next ih => exact ih _
  | choose candidates max next ih => exact ih _
  | readClock next ih => exact ih _
  | note event next ih => exact ih

theorem outcome_attempt_bind {service : Service α} {f : Except Error α → Service β}
    {g : Except Error α → β}
    (hf : ∀ r s selector, (f r).outcome clock s selector = (.ok (g r), s)) :
    (service.attempt >>= f).outcome clock s selector =
      (.ok (g (service.outcome clock s selector).1), (service.outcome clock s selector).2) := by
  change (service.attempt.bind f).outcome clock s selector = _
  induction service generalizing s selector with
  | done result => exact hf result s selector
  | call c next ih => exact ih _
  | choose candidates max next ih => exact ih _
  | readClock next ih => exact ih _
  | note event next ih => exact ih

/-- Each choice along the way of a service that runs alone keeps to a contract. -/
inductive Keeps (contract : Contract) (clock : Int64) : Service α → Store → Selector → Prop
  | done {result : Except Error α} {s : Store} {selector : Selector} :
      Keeps contract clock (.done result) s selector
  | call {c : StoreCall} {next : Except Error c.Answer → Service α} {s : Store}
      {selector : Selector}
      (rest : Keeps contract clock (next (s.perform c).result) (s.perform c).store selector) :
      Keeps contract clock (.call c next) s selector
  | choose {candidates : List String} {max : Nat} {next : List String → Service α} {s : Store}
      {selector : Selector} (chosen : contract candidates max (selector.select candidates max).1)
      (rest : Keeps contract clock (next (selector.select candidates max).1) s
        (selector.select candidates max).2) :
      Keeps contract clock (.choose candidates max next) s selector
  | readClock {next : Int64 → Service α} {s : Store} {selector : Selector}
      (rest : Keeps contract clock (next clock) s selector) :
      Keeps contract clock (.readClock next) s selector
  | note {event : Event} {next : Service α} {s : Store} {selector : Selector}
      (rest : Keeps contract clock next s selector) :
      Keeps contract clock (.note event next) s selector

variable {contract : Contract}

@[simp] theorem keeps_ofExcept_bind {a : α} {f : α → Service β} :
    (ofExcept (.ok a) >>= f).Keeps contract clock s selector ↔
      (f a).Keeps contract clock s selector := .rfl

@[simp] theorem keeps_orFail_bind {e : Error} {a : α} {f : α → Service β} :
    (orFail e (some a) >>= f).Keeps contract clock s selector ↔
      (f a).Keeps contract clock s selector := .rfl

theorem keeps_call {c : StoreCall} {next : Except Error c.Answer → Service β} :
    (Service.call c next).Keeps contract clock s selector ↔
      (next (s.perform c).result).Keeps contract clock (s.perform c).store selector := by
  constructor
  · rintro ⟨⟩
    assumption
  · exact .call

theorem keeps_choose {candidates : List String} {max : Nat} {next : List String → Service β} :
    (Service.choose candidates max next).Keeps contract clock s selector ↔
      contract candidates max (selector.select candidates max).1 ∧
        (next (selector.select candidates max).1).Keeps contract clock s
          (selector.select candidates max).2 := by
  constructor
  · rintro ⟨⟩
    exact ⟨‹_›, ‹_›⟩
  · rintro ⟨hchosen, hrest⟩
    exact .choose hchosen hrest

theorem keeps_look_bind {c : StoreCall} {answer : c.Answer} {f : c.Answer → Service β}
    (h : s.perform c = ⟨.ok answer, s, []⟩) :
    (ask c >>= f).Keeps contract clock s selector ↔
      (f answer).Keeps contract clock s selector := by
  change (Service.call c fun answer => bind f (.done answer)).Keeps contract clock s selector ↔ _
  rw [keeps_call, h]
  rfl

@[simp] theorem keeps_choice_bind {candidates : List String} {max : Nat}
    {f : List String → Service β} :
    (choice candidates max >>= f).Keeps contract clock s selector ↔
      contract candidates max (selector.select candidates max).1 ∧
        (f (selector.select candidates max).1).Keeps contract clock s
          (selector.select candidates max).2 :=
  keeps_choose

theorem keeps_of_steady {service : Service α}
    (hcontract : ∀ candidates max, contract candidates max (selector.select candidates max).1)
    (hsteady : ∀ candidates max, (selector.select candidates max).2 = selector) :
    service.Keeps contract clock s selector := by
  induction service generalizing s with
  | done result => exact .done
  | call c next ih => exact .call (ih _)
  | choose candidates max next ih =>
      refine .choose (hcontract candidates max) ?_
      rw [hsteady]
      exact ih _
  | readClock next ih => exact .readClock (ih _)
  | note event next ih => exact .note ih

def turns (i : Nat) (clock : Int64) : Service α → Store → Selector → List Turn
  | .done _, _, _ => []
  | .call c next, s, selector =>
      .act i [] clock :: turns i clock (next (s.perform c).result) (s.perform c).store selector
  | .choose candidates max next, s, selector =>
      let (chosen, selector) := selector.select candidates max
      .act i chosen clock :: turns i clock (next chosen) s selector
  | .readClock next, s, selector => .act i [] clock :: turns i clock (next clock) s selector
  | .note _ next, s, selector => .act i [] clock :: turns i clock next s selector

section Turns

variable {system : System} {i : Nat} {a : Action} {service : Service a.Answer}
  {chosen : List String} {rest : List Turn}

theorem turn_act (chosen : List String) (clock : Int64)
    (h : system.clients[i]? = some ⟨a, service⟩) :
    (system.turn (.act i chosen clock)).store = (service.step chosen clock system.store).2 ∧
      (system.turn (.act i chosen clock)).clients[i]? =
        some ⟨a, (service.step chosen clock system.store).1⟩ := by
  constructor
  · simp only [System.turn, System.act, h]
  · rw [System.turn, System.clients_act, if_pos rfl, h]
    rfl

theorem allows_act (h : system.clients[i]? = some ⟨a, service⟩)
    (hadmits : service.Admits contract chosen)
    (hrest : (system.turn (.act i chosen clock)).Allows contract rest) :
    system.Allows contract (.act i chosen clock :: rest) := by
  refine ⟨fun client hclient => ?_, hrest⟩
  rw [h] at hclient
  cases hclient
  exact hadmits

theorem foldl_turns (h : system.clients[i]? = some ⟨a, service⟩) (hs : system.store = s)
    (hkeeps : service.Keeps contract clock s selector) :
    system.Allows contract (service.turns i clock s selector) ∧
      ((service.turns i clock s selector).foldl .turn system).store =
        (service.outcome clock s selector).2 := by
  -- Turn by turn the client finds the store that its service finds when it runs alone.
  induction service generalizing system s selector with
  | done result => exact ⟨trivial, hs⟩
  | call c next ih =>
      obtain ⟨hstore, hclient⟩ := turn_act [] clock h
      rw [hs] at hstore hclient
      obtain ⟨hallows, hrest⟩ := ih _ hclient hstore (keeps_call.1 hkeeps)
      exact ⟨allows_act h trivial hallows, hrest⟩
  | choose candidates max next ih =>
      obtain ⟨hchosen, hkeeps⟩ := keeps_choose.1 hkeeps
      obtain ⟨hstore, hclient⟩ := turn_act _ clock h
      rw [hs] at hstore hclient
      obtain ⟨hallows, hrest⟩ := ih _ hclient hstore hkeeps
      exact ⟨allows_act h hchosen hallows, hrest⟩
  | readClock next ih =>
      obtain ⟨hstore, hclient⟩ := turn_act [] clock h
      rw [hs] at hstore hclient
      cases hkeeps with
      | readClock hkeeps =>
          obtain ⟨hallows, hrest⟩ := ih _ hclient hstore hkeeps
          exact ⟨allows_act h trivial hallows, hrest⟩
  | note event next ih =>
      obtain ⟨hstore, hclient⟩ := turn_act [] clock h
      rw [hs] at hstore hclient
      cases hkeeps with
      | note hkeeps =>
          obtain ⟨hallows, hrest⟩ := ih hclient hstore hkeeps
          exact ⟨allows_act h trivial hallows, hrest⟩

end Turns

end Service

/-- What a service leaves that runs alone from the beginning is left in some trace. -/
theorem Trace.exists_outcome {contract : Contract} {a : Action} {clock : Int64}
    {selector : Selector} (hkeeps : a.service.Keeps contract clock ∅ selector) :
    ∃ (t : Trace contract) (n : Nat), t.store n = (a.service.outcome clock ∅ selector).2 := by
  have hclient : ((∅ : System).turn (.arrive a)).clients[0]? = some ⟨a, a.service⟩ := rfl
  obtain ⟨hallows, hstore⟩ := Service.foldl_turns (s := ∅) hclient rfl hkeeps
  let turns := Turn.arrive a :: a.service.turns 0 clock ∅ selector
  have hturns : (∅ : System).Allows contract turns := ⟨trivial, hallows⟩
  refine ⟨ofList turns hturns, turns.length, ?_⟩
  change (System.after (turns.getD · .idle) turns.length).store = _
  rw [after_getD, List.take_length]
  exact hstore

end ReviewRota
