import ReviewRota.Proofs.System

/-!
# What a service does, whoever else is at the store

An outline of a service holds of every way through it.  Between two calls the store is arbitrary,
so nothing that others do in between can break an outline; in a trace it is therefore kept by every
client, with the store calls that the client has made as history.
-/

namespace ReviewRota

structure Move where
  time : Nat
  call : StoreCall
  before : Store

namespace Move

def after (m : Move) : Store :=
  (m.before.perform m.call).store

def Silent (m : Move) : Prop :=
  m.after.database = m.before.database

def Answered (m : Move) (c : StoreCall) (answer : c.Answer) : Prop :=
  m.call = c ∧ (m.before.perform c).result = .ok answer

def Failed (m : Move) (c : StoreCall) (e : Error) : Prop :=
  m.call = c ∧ (m.before.perform c).result = .error e

end Move

namespace Store

variable {s : Store} {c : StoreCall}

theorem perform_eq_ok {answer : c.Answer} (h : (s.perform c).result = .ok answer) :
    s.isOpen = true ∧
      (c.effect s.rejects s.database).1 = .ok (answer, (s.perform c).store.database) := by
  unfold perform at h ⊢
  split at h
  · next hopen =>
      rw [if_pos hopen]
      split at h
      · next heffect => cases h; simp [heffect, hopen]
      · cases h
  · cases h

theorem perform_of_effect {answer : c.Answer} {db : Database} (hopen : s.isOpen = true)
    (h : (c.effect s.rejects s.database).1 = .ok (answer, db)) :
    (s.perform c).result = .ok answer ∧ (s.perform c).store.database = db := by
  unfold perform
  rw [if_pos hopen]
  split
  · next heffect =>
      rw [heffect] at h
      cases h
      exact ⟨rfl, rfl⟩
  · next heffect =>
      rw [heffect] at h
      cases h

theorem store_perform :
    (s.perform c).store = { s with database := (s.perform c).store.database } := by
  unfold perform
  split
  · split <;> rfl
  · rfl

theorem perform_eq_error {e : Error} (h : (s.perform c).result = .error e) :
    (s.perform c).store = s := by
  unfold perform at h ⊢
  split at h
  · next hopen =>
      rw [if_pos hopen]
      split at h
      · cases h
      · rfl
  · next hclosed => rw [if_neg hclosed]

end Store

theorem Move.Answered.effect {m : Move} {c : StoreCall} {answer : c.Answer}
    (h : m.Answered c answer) :
    (c.effect m.before.rejects m.before.database).1 = .ok (answer, m.after.database) := by
  obtain ⟨rfl, hresult⟩ := h
  exact (Store.perform_eq_ok hresult).2

/-- Calls that only look and leave nothing to refuse; a query about many keys may have too many. -/
def StoreCall.looks : StoreCall → Bool
  | .hasTeam _ | .user _ | .roster _ | .hasPullRequest _ | .pullRequest _ | .reviewsOf _
  | .countByReviewer | .countByPullRequest => true
  | .createTeam .. | .setActive .. | .createPullRequest _ | .setMerged .. | .replaceReviewer ..
  | .deactivateTeam .. | .usersAmong _ | .reviewersAmong _ | .writeReviewers .. => false

theorem Move.Answered.user?_eq {m : Move} {id : String} {answer : Option User}
    (h : m.Answered (.user id) answer) : m.before.database.user? id = answer :=
  (Prod.mk.inj (Except.ok.inj h.effect)).1

theorem Move.Answered.roster_eq {m : Move} {team : String} {answer : List User}
    (h : m.Answered (.roster team) answer) : m.before.database.roster team = answer :=
  (Prod.mk.inj (Except.ok.inj h.effect)).1

theorem Move.Answered.pullRequest?_eq {m : Move} {id : String} {answer : Option PullRequest}
    (h : m.Answered (.pullRequest id) answer) : m.before.database.pullRequest? id = answer :=
  (Prod.mk.inj (Except.ok.inj h.effect)).1

theorem Move.silent_of_looks {m : Move} (h : m.call.looks = true) : m.Silent := by
  obtain ⟨time, c, s⟩ := m
  cases hresult : (s.perform c).result with
  | error e => exact congrArg Store.database (Store.perform_eq_error hresult)
  | ok answer =>
      obtain ⟨-, heffect⟩ := Store.perform_eq_ok hresult
      change (s.perform c).store.database = s.database
      cases c <;> first | exact (Prod.mk.inj (Except.ok.inj heffect)).2.symm | cases h

theorem Move.Failed.silent {m : Move} {c : StoreCall} {e : Error} (h : m.Failed c e) :
    m.Silent := by
  obtain ⟨rfl, hresult⟩ := h
  exact congrArg Store.database (Store.perform_eq_error hresult)

namespace Service

variable {α β : Type}

/-- Along every way through the service, `call` holds at each call with the moves before it, latest
first, and `post` holds at the end with all moves. -/
def Outline (contract : Contract) (call : List Move → StoreCall → Prop)
    (post : List Move → Except Error α → Prop) (h : List Move) : Service α → Prop
  | .done result => post h result
  | .call c next =>
      call h c ∧ ∀ time s,
        Outline contract call post (⟨time, c, s⟩ :: h) (next (s.perform c).result)
  | .choose candidates max next =>
      ∀ chosen, contract candidates max chosen → Outline contract call post h (next chosen)
  | .readClock next => ∀ now, Outline contract call post h (next now)
  | .note _ next => Outline contract call post h next

section Rules

variable {contract : Contract} {call : List Move → StoreCall → Prop}
  {post : List Move → Except Error β → Prop} {h : List Move}

theorem outline_bind {s : Service α} {f : α → Service β}
    (hs : s.Outline contract call (fun h r =>
      (∀ e, r = .error e → post h (.error e)) ∧
        ∀ a, r = .ok a → (f a).Outline contract call post h) h) :
    (s >>= f).Outline contract call post h := by
  change (s.bind f).Outline contract call post h
  -- `s` makes moves before `f` does, so that its steps are followed for every history.
  induction s generalizing h with
  | done result =>
      cases result with
      | error e => exact hs.1 e rfl
      | ok a => exact hs.2 a rfl
  | call c next ih => exact ⟨hs.1, fun time store => ih _ (hs.2 time store)⟩
  | choose candidates max next ih => exact fun chosen hchosen => ih _ (hs chosen hchosen)
  | readClock next ih => exact fun now => ih _ (hs now)
  | note event next ih => exact ih hs

theorem outline_ask {c : StoreCall} {f : c.Answer → Service β} (hcall : call h c)
    (herror : ∀ m e, m.Failed c e → post (m :: h) (.error e))
    (hok : ∀ m answer, m.Answered c answer → (f answer).Outline contract call post (m :: h)) :
    (ask c >>= f).Outline contract call post h :=
  outline_bind ⟨hcall, fun time s => ⟨fun e he => herror ⟨time, c, s⟩ e ⟨rfl, he⟩,
    fun answer ha => hok ⟨time, c, s⟩ answer ⟨rfl, ha⟩⟩⟩

theorem outline_ofExcept {r : Except Error α} {f : α → Service β}
    (herror : ∀ e, r = .error e → post h (.error e))
    (hok : ∀ a, r = .ok a → (f a).Outline contract call post h) :
    (ofExcept r >>= f).Outline contract call post h :=
  outline_bind ⟨herror, hok⟩

theorem outline_orFail {e : Error} {o : Option α} {f : α → Service β}
    (hnone : o = none → post h (.error e))
    (hsome : ∀ a, o = some a → (f a).Outline contract call post h) :
    (orFail e o >>= f).Outline contract call post h := by
  cases o with
  | none => exact hnone rfl
  | some a => exact hsome a rfl

theorem outline_choice {candidates : List String} {max : Nat} {f : List String → Service β}
    (hf : ∀ chosen, contract candidates max chosen → (f chosen).Outline contract call post h) :
    (choice candidates max >>= f).Outline contract call post h :=
  hf

theorem outline_now {f : Int64 → Service β}
    (hf : ∀ time, (f time).Outline contract call post h) :
    (now >>= f).Outline contract call post h :=
  hf

theorem outline_log {event : Event} {f : Unit → Service β}
    (hf : (f ()).Outline contract call post h) :
    (log event >>= f).Outline contract call post h :=
  hf

end Rules

end Service

/-! ## Histories in a trace -/

namespace Trace

variable {contract : Contract} {t : Trace contract} {i n : Nat} {m : Move} {client : Client}

def move? (t : Trace contract) (i n : Nat) : Option Move :=
  match t.turns n, t.client? i n with
  | .act j _ _, some ⟨_, .call c _⟩ => if j = i then some ⟨n, c, t.store n⟩ else none
  | _, _ => none

def history (t : Trace contract) (i : Nat) : Nat → List Move
  | 0 => []
  | n + 1 => (t.move? i n).toList ++ t.history i n

theorem move?_eq_some (h : t.move? i n = some m) :
    ∃ chosen now client next, t.turns n = .act i chosen now ∧ t.client? i n = some client ∧
      client.rest = .call m.call next ∧ m.time = n ∧ m.before = t.store n := by
  unfold move? at h
  split at h
  · next j chosen now action c next hturn hclient =>
      split at h
      · next hji =>
          cases h
          exact ⟨chosen, now, _, next, hji ▸ hturn, hclient, rfl, rfl, rfl⟩
      · cases h
  · cases h

theorem time_of_move? (h : t.move? i n = some m) : m.time = n := by
  obtain ⟨-, -, -, -, -, -, -, htime, -⟩ := move?_eq_some h
  exact htime

theorem before_of_move? (h : t.move? i n = some m) : m.before = t.store n := by
  obtain ⟨-, -, -, -, -, -, -, -, hbefore⟩ := move?_eq_some h
  exact hbefore

theorem mem_history : m ∈ t.history i n ↔ m.time < n ∧ t.move? i m.time = some m := by
  induction n with
  | zero => simp [history]
  | succ n ih =>
      rw [history, List.mem_append, Option.mem_toList, ih]
      constructor
      · rintro (hm | ⟨hlt, hm⟩)
        · rw [time_of_move? hm]
          exact ⟨Nat.lt_succ_self n, hm⟩
        · exact ⟨Nat.lt_succ_of_lt hlt, hm⟩
      · rintro ⟨hlt, hm⟩
        rcases Nat.lt_succ_iff_lt_or_eq.1 hlt with hlt | rfl
        · exact .inr ⟨hlt, hm⟩
        · exact .inl hm

theorem after_of_move? (h : t.move? i n = some m) : m.after = t.store (n + 1) := by
  obtain ⟨chosen, now, client, next, hturn, hclient, hrest, -, hbefore⟩ := move?_eq_some h
  have hclient : (t.state n).clients[i]? = some client := hclient
  rw [store, state_succ, hturn, Move.after, hbefore]
  simp only [System.turn, System.act, hclient, hrest, Service.step]
  rfl

theorem database_of_move? (h : t.move? i n = some m) :
    m.before.database = t.database n ∧ m.after.database = t.database (n + 1) := by
  rw [before_of_move? h, after_of_move? h]
  exact ⟨rfl, rfl⟩

theorem database_succ (t : Trace contract) (n : Nat) :
    t.database (n + 1) = t.database n ∨ ∃ i m, t.move? i n = some m := by
  rw [database, store, state_succ]
  cases hturn : t.turns n with
  | idle | arrive action | disturb rejects isOpen => exact .inl rfl
  | act i chosen now =>
      cases hclient : (t.state n).clients[i]? with
      | none => exact .inl (by simp only [System.turn, System.act, hclient]; rfl)
      | some client =>
          obtain ⟨action, rest⟩ := client
          have hclient' : t.client? i n = some ⟨action, rest⟩ := hclient
          cases rest with
          | call c next =>
              exact .inr ⟨i, ⟨n, c, t.store n⟩, by simp [move?, hturn, hclient']⟩
          | done | choose | readClock | note =>
              exact .inl (by simp only [System.turn, System.act, hclient, Service.step]; rfl)

theorem database_eq_of_silent {k : Nat} (hle : k ≤ n)
    (hsilent : ∀ l, k ≤ l → l < n → t.database (l + 1) = t.database l) :
    t.database n = t.database k := by
  induction hle with
  | refl => rfl
  | @step n hle ih =>
      rw [hsilent n hle (Nat.lt_succ_self n)]
      exact ih fun l hl hlt => hsilent l hl (Nat.lt_succ_of_lt hlt)

theorem client?_succ (h : t.client? i (n + 1) = some client) :
    t.client? i n = some client ∧ t.move? i n = none ∨
      (∃ a : Action, client = ⟨a, a.service⟩) ∧ t.client? i n = none ∨
        ∃ chosen now earlier, t.turns n = .act i chosen now ∧ t.client? i n = some earlier ∧
          client = ⟨earlier.action, (earlier.rest.step chosen now (t.store n)).1⟩ := by
  rw [client?, state_succ] at h
  cases hturn : t.turns n with
  | idle | disturb =>
      rw [hturn] at h
      exact .inl ⟨h, by simp only [move?, hturn]⟩
  | arrive action =>
      simp only [hturn, System.turn] at h
      cases hclient : t.client? i n with
      | some earlier =>
          have hlt := (List.getElem?_eq_some_iff.1 hclient).1
          rw [List.getElem?_append_left hlt] at h
          exact .inl ⟨hclient.symm.trans h, by simp only [move?, hturn]⟩
      | none =>
          have hle := List.getElem?_eq_none_iff.1 hclient
          rw [List.getElem?_append_right hle, List.getElem?_singleton] at h
          split at h
          · cases h
            exact .inr (.inl ⟨⟨action, rfl⟩, rfl⟩)
          · cases h
  | act j chosen now =>
      rw [hturn] at h
      simp only [System.turn, System.clients_act] at h
      split at h
      · next hji =>
          obtain ⟨earlier, hearlier, rfl⟩ := Option.map_eq_some_iff.1 h
          exact .inr (.inr ⟨chosen, now, earlier, by rw [hji], hearlier, rfl⟩)
      · next hji =>
          refine .inl ⟨h, ?_⟩
          unfold move?
          split
          · next hact _ =>
              rw [hturn] at hact
              cases hact
              exact if_neg hji
          · rfl

theorem client?_eq_none_of_le {k : Nat} (hle : n ≤ k) (h : t.client? i k = none) :
    t.client? i n = none := by
  induction hle with
  | refl => exact h
  | @step k _ ih =>
      apply ih
      cases hturn : t.turns k with
      | idle | disturb =>
          rw [client?, state_succ, hturn] at h
          exact h
      | arrive action =>
          rw [client?, state_succ, hturn] at h
          refine List.getElem?_eq_none_iff.2 (Nat.le_trans ?_ (List.getElem?_eq_none_iff.1 h))
          simp [System.turn]
      | act j chosen now =>
          rw [client?, state_succ, hturn] at h
          simp only [System.turn, System.clients_act] at h
          split at h
          · exact Option.map_eq_none_iff.1 h
          · exact h

def Acts (t : Trace contract) (i n : Nat) : Prop :=
  ∃ chosen now, t.turns n = .act i chosen now

theorem acts_of_move? (h : t.move? i n = some m) : t.Acts i n := by
  obtain ⟨chosen, now, -, -, hturn, -⟩ := move?_eq_some h
  exact ⟨chosen, now, hturn⟩

theorem eq_of_acts {j : Nat} (hi : t.Acts i n) (hj : t.Acts j n) : i = j := by
  obtain ⟨_, _, hi⟩ := hi
  obtain ⟨_, _, hj⟩ := hj
  rw [hi] at hj
  cases hj
  rfl

theorem database_of_no_move (h : t.Acts i n) (hmove : t.move? i n = none) :
    t.database (n + 1) = t.database n := by
  rcases t.database_succ n with hsame | ⟨j, m, hj⟩
  · exact hsame
  · rw [← eq_of_acts h (acts_of_move? hj), hmove] at hj
    cases hj

theorem client?_of_done {k : Nat} {a : Action} {result : Except Error a.Answer} (hle : n ≤ k)
    (h : t.client? i n = some ⟨a, .done result⟩) : t.client? i k = some ⟨a, .done result⟩ := by
  induction hle with
  | refl => exact h
  | @step k hle ih =>
      cases hclient : t.client? i (k + 1) with
      | none =>
          rw [client?_eq_none_of_le (Nat.le_succ k) hclient] at ih
          cases ih
      | some client =>
          rcases client?_succ hclient with ⟨hsame, -⟩ | ⟨-, hnone⟩ | ⟨_, _, _, _, hsame, rfl⟩
          · rw [← hsame, ih]
          · rw [ih] at hnone
            cases hnone
          · rw [ih] at hsame
            cases hsame
            rfl

theorem move?_of_done {k : Nat} {a : Action} {result : Except Error a.Answer} (hle : n ≤ k)
    (h : t.client? i n = some ⟨a, .done result⟩) : t.move? i k = none := by
  rw [Option.eq_none_iff_forall_ne_some]
  intro m hmove
  obtain ⟨-, -, client, next, -, hclient, hrest, -⟩ := move?_eq_some hmove
  rw [client?_of_done hle h] at hclient
  cases hclient
  cases hrest

theorem history_eq_nil (h : t.client? i n = none) : t.history i n = [] := by
  rw [List.eq_nil_iff_forall_not_mem]
  intro m hm
  obtain ⟨hlt, hmove⟩ := mem_history.1 hm
  obtain ⟨-, -, client, -, -, hclient, -⟩ := move?_eq_some hmove
  rw [client?_eq_none_of_le (Nat.le_of_lt hlt) h] at hclient
  cases hclient

/-- What a service keeps along every way through it, a client keeps that came after turn `k` and
has been given choices as `strict` demands. -/
theorem outline_since {k : Nat} {strict : Contract} {call : List Move → StoreCall → Prop}
    {post : (a : Action) → List Move → Except Error a.Answer → Prop}
    (hservice : ∀ a : Action, a.service.Outline strict call (post a) [])
    (hk : t.client? i k = none) (hle : k ≤ n)
    (hallowed : ∀ j, k ≤ j → j < n → t.Acts i j → (t.turns j).Allowed strict (t.state j))
    (h : t.client? i n = some client) :
    client.rest.Outline strict call (post client.action) (t.history i n) := by
  -- What remains of a service keeps to the outline of what remained one turn before.
  induction hle generalizing client with
  | refl =>
      rw [hk] at h
      cases h
  | @step n hle ih =>
      have ih := fun {client} => @ih client fun j hj hlt => hallowed j hj (Nat.lt_succ_of_lt hlt)
      rw [history]
      rcases client?_succ h with ⟨hclient, hmove⟩ | ⟨⟨a, rfl⟩, hnone⟩ |
        ⟨chosen, now, ⟨action, rest⟩, hturn, hclient, rfl⟩
      · rw [hmove]
        exact ih hclient
      · have hmove : t.move? i n = none := by simp [move?, hnone]
        rw [hmove, history_eq_nil hnone]
        exact hservice a
      · have hrest := ih hclient
        have hchosen := hallowed n hle (Nat.lt_succ_self n) ⟨chosen, now, hturn⟩
        rw [hturn] at hchosen
        cases rest with
        | call c next =>
            have hmove : t.move? i n = some ⟨n, c, t.store n⟩ := by simp [move?, hturn, hclient]
            rw [hmove]
            exact hrest.2 n (t.store n)
        | done | choose | readClock | note =>
            have hmove : t.move? i n = none := by simp [move?, hturn, hclient]
            rw [hmove]
            first
              | exact hrest
              | exact hrest now
              | exact hrest chosen (hchosen _ hclient)

theorem outline {call : List Move → StoreCall → Prop}
    {post : (a : Action) → List Move → Except Error a.Answer → Prop}
    (hservice : ∀ a : Action, a.service.Outline contract call (post a) [])
    (h : t.client? i n = some client) :
    client.rest.Outline contract call (post client.action) (t.history i n) :=
  outline_since hservice rfl (Nat.zero_le n) (fun j _ _ _ => t.allowed j) h

theorem call_of_move? {call : List Move → StoreCall → Prop}
    {post : (a : Action) → List Move → Except Error a.Answer → Prop}
    (hservice : ∀ a : Action, a.service.Outline contract call (post a) [])
    (h : t.move? i n = some m) : call (t.history i n) m.call := by
  obtain ⟨-, -, client, next, -, hclient, hrest, -⟩ := move?_eq_some h
  have houtline := t.outline hservice hclient
  rw [hrest] at houtline
  exact houtline.1

end Trace

end ReviewRota
